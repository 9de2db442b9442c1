import Osfx.Replay

/-!
# Key agreement

A client sends data in the clear and notes the timestamp of each frame; the server
takes its key from the first frame it lets through and names the timestamp in its
answer; the client then confirms the key it has noted last. Messages are lost or
overtake each other. `keys_agree_iff` says that the two keys are equal in every state
exactly if each answer finds the client with a key noted from its timestamp.
-/

namespace Osfx

open EventSystem SlotTable SecureStore Numeral

/-- Both parties of one aid, the last timestamp sent, and the messages in flight. -/
structure KeyExchange where
  client : SecureStore
  server : SecureStore
  lastSent : Option UInt64
  inFlight : List Bytes

/-- A message is named by its place among those in flight. -/
inductive ExchangeEvent where
  | send (cmd tid : UInt8) (timestampRaw nowTs : UInt64) (body : Bytes)
  | serve (i : Nat) (nowTs : UInt64)
  | answer (i : Nat) (nowTs : UInt64)
  | lose (i : Nat)

/-- A packet handed to a store; neither kind of message reads the id allocator. -/
def handOver (store : SecureStore) (packet : Bytes) (nowTs : UInt64) : HsOutcome 0 :=
  (⟨packet, nowTs, none⟩ : Delivery 0).dispatch store

def KeyExchange.init (clientExpire serverExpire : UInt64) : KeyExchange :=
  ⟨secureStoreInit clientExpire, secureStoreInit serverExpire, none, []⟩

def exchangeStep (aid : UInt32) (w : KeyExchange) : ExchangeEvent → Option KeyExchange
  | .send cmd tid timestampRaw nowTs body =>
    if isDataCmd cmd ∧ w.lastSent.all (· < timestampRaw) then
      some { w with
        client := (w.client.notePlaintextSent aid timestampRaw nowTs).1
        lastSent := timestampRaw
        inFlight := w.inFlight ++ [packetFrame cmd aid tid timestampRaw body] }
    else none
  | .serve i nowTs => do
    let packet ← w.inFlight[i]?
    if isDataCmd (cmdNormalizeData (packet.getD 0 0)) then
      let o := handOver w.server packet nowTs
      let server ← o.ctx.secureStore
      some { w with server, inFlight := w.inFlight.eraseIdx i ++ o.result.response.toList }
    else none
  | .answer i nowTs => do
    let packet ← w.inFlight[i]?
    if packet.getD 0 0 = Cmd.secureDictReady then
      let o := handOver w.client packet nowTs
      let client ← o.ctx.secureStore
      some { w with client, inFlight := w.inFlight.eraseIdx i ++ o.result.response.toList }
    else none
  | .lose i =>
    if i < w.inFlight.length then some { w with inFlight := w.inFlight.eraseIdx i } else none

/-- Where both parties have a key, it is the same. -/
def KeysAgree (aid : UInt32) (w : KeyExchange) : Prop :=
  ∀ kc ks, w.client.getKey aid = some kc → w.server.getKey aid = some ks → kc = ks

/-- An answer that is handed over finds the client without a noted key, or with one that
is the key of the answer's timestamp. -/
def AnswersNoted (aid : UInt32) (w : KeyExchange) : ExchangeEvent → Prop
  | .answer i _ => ∀ packet, w.inFlight[i]? = some packet →
      (w.client.sessionOrNew aid).pendingKeySet = true →
      deriveKey aid (w.client.sessionOrNew aid).pendingTimestamp =
        deriveKey aid (packetReadyTs packet)
  | _ => True

/-! ## The two messages -/

def readyPacket (aid : UInt32) (timestampRaw : UInt64) : Bytes :=
  Cmd.secureDictReady :: beBytes 4 aid.toNat ++ beBytes 8 timestampRaw.toNat

theorem readyPacket_aid (aid : UInt32) (timestampRaw : UInt64) :
    packetAid (readyPacket aid timestampRaw) = aid := by
  have hslice : slice (readyPacket aid timestampRaw) 1 4 = beBytes 4 aid.toNat :=
    slice_append [Cmd.secureDictReady] _ _ rfl (length_beBytes _ _).symm
  rw [packetAid, hslice, u32_beBytes]

theorem readyPacket_ts (aid : UInt32) (timestampRaw : UInt64) :
    packetReadyTs (readyPacket aid timestampRaw) = timestampRaw := by
  have hslice : slice (readyPacket aid timestampRaw) 5 8 = beBytes 8 timestampRaw.toNat := by
    have happ : readyPacket aid timestampRaw =
        (Cmd.secureDictReady :: beBytes 4 aid.toNat) ++ beBytes 8 timestampRaw.toNat ++ [] := by
      simp [readyPacket]
    rw [happ]
    exact slice_append _ _ _ (by simp) (by simp)
  rw [packetReadyTs, hslice, u64_beBytes]

theorem writeResponse_ready (r : HsResult) (aid : UInt32) (timestampRaw : UInt64) :
    (r.writeResponse (buildSecureDictReady aid timestampRaw 16)).response =
      some (readyPacket aid timestampRaw) := by
  have hbuild : buildSecureDictReady aid timestampRaw 16 = some (readyPacket aid timestampRaw) :=
    if_neg (by decide)
  have hfits : ¬ (readyPacket aid timestampRaw).length > hsRespMax := by
    simp [readyPacket, hsRespMax]
  rw [hbuild, HsResult.writeResponse, if_neg hfits]

theorem handOver_ready (store : SecureStore) (aid : UInt32) (timestampRaw nowTs : UInt64) :
    (handOver store (readyPacket aid timestampRaw) nowTs).ctx.secureStore =
      some (store.confirmDict aid timestampRaw nowTs).1 ∧
    (handOver store (readyPacket aid timestampRaw) nowTs).result.response = none := by
  have hlen : (readyPacket aid timestampRaw).length = 13 := by simp [readyPacket]
  have hctrl : handOver store (readyPacket aid timestampRaw) nowTs =
      dispatchDictReady ⟨some store, none, nowTs⟩ (readyPacket aid timestampRaw)
        ⟨.ctrl, Cmd.secureDictReady, Cmd.secureDictReady, 0, true, .none, .none⟩ := rfl
  rw [hctrl]
  simp only [dispatchDictReady, hlen, ne_eq, not_true_eq_false, if_false, readyPacket_aid,
    readyPacket_ts, and_self]

/-- The two sessions have the same keys. -/
structure SameKeys (s s' : SecureSession) : Prop where
  key : s'.key = s.key
  keySet : s'.keySet = s.keySet
  dictReady : s'.dictReady = s.dictReady
  pendingTimestamp : s'.pendingTimestamp = s.pendingTimestamp
  pendingKey : s'.pendingKey = s.pendingKey
  pendingKeySet : s'.pendingKeySet = s.pendingKeySet

theorem SameKeys.refl (s : SecureSession) : SameKeys s s := ⟨rfl, rfl, rfl, rfl, rfl, rfl⟩

theorem SameKeys.getKey {store store' : SecureStore} {aid : UInt32}
    (h : SameKeys (store.sessionOrNew aid) (store'.sessionOrNew aid)) :
    store'.getKey aid = store.getKey aid := by
  rw [getKey_eq, getKey_eq, h.key, h.keySet]

theorem isDataCmd_normalize {cmd : UInt8} (h : isDataCmd cmd = true) :
    cmdNormalizeData cmd = cmd := by
  simp only [isDataCmd, Bool.or_eq_true, decide_eq_true_eq] at h
  rcases h with (rfl | rfl) | rfl <;> rfl

/-- Checking a timestamp leaves the keys alone. -/
theorem sameKeys_check (store : SecureStore) (aid : UInt32) (timestampRaw nowTs : UInt64) :
    SameKeys (store.sessionOrNew aid)
      ((store.checkAndUpdateTimestamp aid timestampRaw nowTs).1.sessionOrNew aid) := by
  rcases checkAndUpdateTimestamp_cases store aid timestampRaw nowTs with
    ⟨-, -, hk⟩ | ⟨-, -, hk⟩
  · rw [session_sessionOrNew ((hk aid).trans (if_pos rfl))]
    exact ⟨rfl, rfl, rfl, rfl, rfl, rfl⟩
  · have haid := (hk aid).trans (if_pos rfl)
    unfold sessionOrNew
    rw [haid]
    cases store.session aid <;> exact ⟨rfl, rfl, rfl, rfl, rfl, rfl⟩

section
variable (server : SecureStore) (aid : UInt32) {cmd : UInt8} (tid : UInt8)
  (timestampRaw nowTs : UInt64) (body : Bytes)

theorem dataMeta_frame (hcmd : isDataCmd cmd = true) :
    dataMeta (packetFrame cmd aid tid timestampRaw body) = some {
      cmd := cmd, routeCount := 1, sourceAid := aid, tid := tid
      timestampRaw := wireTimestamp timestampRaw, bodyOffset := 13, bodyLen := body.length
      crc8Ok := true, crc16Ok := true } := by
  have hhead : (packetFrame cmd aid tid timestampRaw body).getD 0 0 = cmd := rfl
  rw [dataMeta, hhead, isDataCmd_normalize hcmd, if_pos hcmd]
  exact packetDecodeMin_frame cmd aid tid timestampRaw body

/-- The server answers a frame with its timestamp and takes the key of it, or it leaves
its keys alone and is silent. -/
theorem serve_cases (hcmd : isDataCmd cmd = true) :
    ∃ server', (handOver server (packetFrame cmd aid tid timestampRaw body) nowTs).ctx.secureStore =
        some server' ∧
      (((handOver server (packetFrame cmd aid tid timestampRaw body) nowTs).result.response = none ∧
          SameKeys (server.sessionOrNew aid) (server'.sessionOrNew aid)) ∨
        ((handOver server (packetFrame cmd aid tid timestampRaw body) nowTs).result.response =
            some (readyPacket aid (wireTimestamp timestampRaw)) ∧
          server.shouldEncrypt aid = false ∧
          ∃ s, SameKeys (server.sessionOrNew aid) s ∧
            server'.sessionOrNew aid =
              s.dictConfirmed aid (wireTimestamp timestampRaw) nowTs)) := by
  have hmeta := dataMeta_frame aid tid timestampRaw body hcmd
  have hhead : (packetFrame cmd aid tid timestampRaw body).getD 0 0 = cmd := rfl
  have hkeys := sameKeys_check server aid (wireTimestamp timestampRaw) nowTs
  have hencrypt := shouldEncrypt_check server aid (wireTimestamp timestampRaw) nowTs
  have hcheck := checkAndUpdateTimestamp_cases server aid (wireTimestamp timestampRaw) nowTs
  rw [handOver, dispatch_session (d := ⟨packetFrame cmd aid tid timestampRaw body, nowTs, none⟩)
    hmeta rfl server]
  simp only [hhead, isDataCmd_normalize hcmd, dispatchSession, Delivery.ctx]
  generalize server.checkAndUpdateTimestamp aid (wireTimestamp timestampRaw) nowTs = checked at *
  obtain ⟨checked, verdict⟩ := checked
  rcases hcheck with ⟨-, rfl, hstore⟩ | ⟨-, hreject, -⟩
  · have hsession := (hstore aid).trans (if_pos rfl)
    simp only [if_true, dispatchPlain]
    simp only at hkeys hencrypt hsession
    split
    · exact ⟨checked, rfl, Or.inl ⟨rfl, hkeys⟩⟩
    · rename_i hplain
      rw [hencrypt, Bool.not_eq_true] at hplain
      have hanswer := writeResponse_ready
        ⟨.data, cmd, cmd, aid, true, .none, .none⟩ aid (wireTimestamp timestampRaw)
      refine ⟨(checked.confirmDict aid (wireTimestamp timestampRaw) nowTs).1, rfl,
        Or.inr ⟨hanswer, hplain, checked.sessionOrNew aid, hkeys, ?_⟩⟩
      have hconfirmed := session_modify_of_some hsession
        (keeps_dictConfirmed aid (wireTimestamp timestampRaw) nowTs) aid
      rw [if_pos rfl] at hconfirmed
      rw [session_sessionOrNew hsession]
      exact session_sessionOrNew hconfirmed
  · cases verdict with
    | accept => exact absurd rfl hreject
    | replay => exact ⟨checked, rfl, Or.inl ⟨rfl, hkeys⟩⟩
    | outOfOrder => exact ⟨checked, rfl, Or.inl ⟨rfl, hkeys⟩⟩

end

/-! ## What the operations do to the keys -/

/-- A noted key is the key of the timestamp noted with it. -/
def Noted (aid : UInt32) (s : SecureSession) : Prop :=
  s.pendingKeySet = true → s.pendingKey = deriveKey aid s.pendingTimestamp

theorem noted_plaintextSent (s : SecureSession) (aid : UInt32) (timestampRaw nowTs : UInt64) :
    Noted aid (s.plaintextSent aid timestampRaw nowTs) :=
  fun _ => rfl

/-- A confirmed session has the key it noted, or the key of the answer. -/
theorem key_dictConfirmed (s : SecureSession) (aid : UInt32) (timestampRaw nowTs : UInt64) :
    (s.dictConfirmed aid timestampRaw nowTs).keySet = true ∧
    (s.dictConfirmed aid timestampRaw nowTs).dictReady = true ∧
    (s.dictConfirmed aid timestampRaw nowTs).key =
      if s.pendingKeySet then s.pendingKey else deriveKey aid timestampRaw := by
  refine ⟨rfl, rfl, ?_⟩
  rcases withPendingKey_cases s aid timestampRaw with ⟨hset, h⟩ | ⟨hset, h⟩
  · simp only [SecureSession.dictConfirmed, h, hset, if_true]
  · simp only [SecureSession.dictConfirmed, h, hset, Bool.false_eq_true, if_false]

theorem noted_dictConfirmed {s : SecureSession} {aid : UInt32} (hs : Noted aid s)
    (timestampRaw nowTs : UInt64) : Noted aid (s.dictConfirmed aid timestampRaw nowTs) := by
  rcases withPendingKey_cases s aid timestampRaw with ⟨hset, h⟩ | ⟨-, h⟩
  · intro _
    simp only [SecureSession.dictConfirmed, h]
    exact hs hset
  · intro _
    simp only [SecureSession.dictConfirmed, h]

/-- An operation on the aid itself. -/
theorem sessionOrNew_modify (store : SecureStore) (aid : UInt32)
    {f : SecureSession → SecureSession} (hf : Keeps f) :
    (store.modify aid f).1.sessionOrNew aid = f (store.sessionOrNew aid) ∨
    (store.session aid = none ∧ (store.modify aid f).1 = store) := by
  rcases session_modify store aid hf with hk | hfull
  · exact Or.inl (session_sessionOrNew ((hk aid).trans (if_pos rfl)))
  · exact Or.inr hfull

/-! ## The invariant -/

/-- A message in flight is a frame of the client, or an answer the server stands by. -/
def MessageOk (aid : UInt32) (server : SecureStore) (packet : Bytes) : Prop :=
  (∃ cmd tid timestampRaw body, isDataCmd cmd = true ∧
    packet = packetFrame cmd aid tid timestampRaw body) ∨
  ∃ timestampRaw, packet = readyPacket aid timestampRaw ∧
    server.getKey aid = some (deriveKey aid timestampRaw)

structure ExchangeOk (aid : UInt32) (w : KeyExchange) : Prop where
  messages : ∀ packet ∈ w.inFlight, MessageOk aid w.server packet
  noted : Noted aid (w.client.sessionOrNew aid)
  served : ((w.server.sessionOrNew aid).keySet = false ∧
      (w.server.sessionOrNew aid).pendingKeySet = false) ∨
    ((w.server.sessionOrNew aid).keySet = true ∧ (w.server.sessionOrNew aid).dictReady = true)
  confirmed : ∀ key, w.client.getKey aid = some key → w.server.getKey aid = some key

theorem ExchangeOk.keysAgree {aid : UInt32} {w : KeyExchange} (h : ExchangeOk aid w) :
    KeysAgree aid w := by
  intro kc ks hc hs
  have := h.confirmed kc hc
  rw [hs] at this
  exact (Option.some.inj this).symm

theorem session_init (expire : UInt64) (aid : UInt32) :
    (secureStoreInit expire).session aid = none := by
  have hnone : lookup SecureSession.used SecureSession.aid (secureStoreInit expire).sessions aid =
      none := by
    apply lookup_none.mpr
    intro i hu
    simp only [secureStoreInit, get_replicate] at hu
    cases hu
  rw [session, entry, hnone, Option.map_none]

theorem exchangeOk_init (aid : UInt32) (clientExpire serverExpire : UInt64) :
    ExchangeOk aid (.init clientExpire serverExpire) := by
  have hclient : (KeyExchange.init clientExpire serverExpire).client.sessionOrNew aid =
      .fresh aid := by
    simp only [KeyExchange.init, sessionOrNew, session_init, Option.getD_none]
  have hserver : (KeyExchange.init clientExpire serverExpire).server.sessionOrNew aid =
      .fresh aid := by
    simp only [KeyExchange.init, sessionOrNew, session_init, Option.getD_none]
  refine ⟨?_, ?_, ?_, ?_⟩
  · intro packet hp
    cases hp
  · intro hset
    rw [hclient] at hset
    cases hset
  · rw [hserver]
    exact Or.inl ⟨rfl, rfl⟩
  · intro key hkey
    rw [getKey_eq, hclient] at hkey
    cases hkey

/-- Messages that are left in flight are as good as before, if the server keeps its key. -/
theorem messages_left {aid : UInt32} {server server' : SecureStore} {packets : List Bytes}
    (h : ∀ packet ∈ packets, MessageOk aid server packet)
    (hkey : server'.getKey aid = server.getKey aid) (i : Nat) :
    ∀ packet ∈ packets.eraseIdx i, MessageOk aid server' packet := by
  intro packet hp
  rcases h packet (List.mem_of_mem_eraseIdx hp) with hframe | ⟨ts, hready, hserver⟩
  · exact Or.inl hframe
  · exact Or.inr ⟨ts, hready, hkey.trans hserver⟩

section
variable {aid : UInt32} {w w' : KeyExchange}

theorem send_keeps (hok : ExchangeOk aid w) {cmd tid : UInt8} {timestampRaw nowTs : UInt64}
    {body : Bytes} (h : exchangeStep aid w (.send cmd tid timestampRaw nowTs body) = some w') :
    ExchangeOk aid w' := by
  simp only [exchangeStep] at h
  split at h
  · rename_i hcmd
    cases h
    have hmessages : ∀ packet ∈ w.inFlight ++ [packetFrame cmd aid tid timestampRaw body],
        MessageOk aid w.server packet := by
      intro packet hp
      rcases List.mem_append.mp hp with hp | hp
      · exact hok.messages packet hp
      · exact Or.inl ⟨cmd, tid, timestampRaw, body, hcmd.1, List.mem_singleton.mp hp⟩
    rcases sessionOrNew_modify w.client aid (keeps_plaintextSent aid timestampRaw nowTs) with
      hnew | ⟨-, hsame⟩
    · refine ⟨hmessages, ?_, hok.served, ?_⟩
      · simp only [notePlaintextSent, hnew]
        exact noted_plaintextSent _ aid timestampRaw nowTs
      · intro key hkey
        apply hok.confirmed
        rw [getKey_eq] at hkey ⊢
        simp only [notePlaintextSent, hnew] at hkey
        exact hkey
    · refine ⟨hmessages, ?_, hok.served, ?_⟩
      · simp only [notePlaintextSent, hsame]
        exact hok.noted
      · simp only [notePlaintextSent, hsame]
        exact hok.confirmed
  · cases h

theorem lose_keeps (hok : ExchangeOk aid w) {i : Nat}
    (h : exchangeStep aid w (.lose i) = some w') : ExchangeOk aid w' := by
  simp only [exchangeStep] at h
  split at h
  · cases h
    exact ⟨messages_left hok.messages rfl i, hok.noted, hok.served, hok.confirmed⟩
  · cases h

/-- A server that does not encrypt yet has no key for the aid, and none is pending. -/
theorem ExchangeOk.server_noKey (hok : ExchangeOk aid w)
    (hplain : w.server.shouldEncrypt aid = false) :
    (w.server.sessionOrNew aid).pendingKeySet = false ∧ w.server.getKey aid = none := by
  rcases hok.served with ⟨hunset, hunnoted⟩ | ⟨hset, hready⟩
  · refine ⟨hunnoted, ?_⟩
    rw [getKey_eq, hunset]
    rfl
  · rw [shouldEncrypt_eq, hset, hready] at hplain
    cases hplain

theorem serve_keeps (hok : ExchangeOk aid w) {i : Nat} {nowTs : UInt64}
    (h : exchangeStep aid w (.serve i nowTs) = some w') : ExchangeOk aid w' := by
  obtain ⟨packet, hpacket, h⟩ := Option.bind_eq_some_iff.mp h
  split at h
  case isFalse => cases h
  rename_i hdata
  obtain ⟨server', hserver, h⟩ := Option.bind_eq_some_iff.mp h
  cases h
  rcases hok.messages packet (List.mem_of_getElem? hpacket) with
    ⟨cmd, tid, timestampRaw, body, hcmd, rfl⟩ | ⟨timestampRaw, rfl, -⟩
  case inr => exact absurd hdata (by decide : ¬ isDataCmd (cmdNormalizeData 13) = true)
  obtain ⟨server'', hstore, hcase⟩ := serve_cases w.server aid tid timestampRaw nowTs body hcmd
  rw [hserver] at hstore
  cases hstore
  rcases hcase with ⟨hsilent, hkeys⟩ | ⟨hanswer, hplain, s, hkeys, hnew⟩
  · refine ⟨?_, hok.noted, ?_, ?_⟩
    · simp only [hsilent, Option.toList_none, List.append_nil]
      exact messages_left hok.messages hkeys.getKey i
    · rw [hkeys.keySet, hkeys.pendingKeySet, hkeys.dictReady]
      exact hok.served
    · rw [hkeys.getKey]
      exact hok.confirmed
  · -- The server had no key yet, so nobody has, and no answer is in flight.
    obtain ⟨hunnoted, hnokey⟩ := hok.server_noKey hplain
    obtain ⟨hset, hready, hkey⟩ := key_dictConfirmed s aid (wireTimestamp timestampRaw) nowTs
    rw [hkeys.pendingKeySet, hunnoted, if_neg (by decide)] at hkey
    have hserved : server'.getKey aid = some (deriveKey aid (wireTimestamp timestampRaw)) := by
      rw [getKey_eq, hnew, hset, if_pos rfl, hkey]
    refine ⟨?_, hok.noted, Or.inr (by rw [hnew]; exact ⟨hset, hready⟩), ?_⟩
    · intro packet hp
      simp only [hanswer, Option.toList_some, List.mem_append, List.mem_singleton] at hp
      rcases hp with hp | rfl
      · rcases hok.messages packet (List.mem_of_mem_eraseIdx hp) with hframe | ⟨ts, -, hserver⟩
        · exact Or.inl hframe
        · rw [hnokey] at hserver
          cases hserver
      · exact Or.inr ⟨wireTimestamp timestampRaw, rfl, hserved⟩
    · intro key hclient
      have := hok.confirmed key hclient
      rw [hnokey] at this
      cases this

/-- The client confirms a key when it is handed an answer. -/
theorem answer_cases (hok : ExchangeOk aid w) {i : Nat} {nowTs : UInt64}
    (h : exchangeStep aid w (.answer i nowTs) = some w') :
    ∃ timestampRaw, w.inFlight[i]? = some (readyPacket aid timestampRaw) ∧
      w.server.getKey aid = some (deriveKey aid timestampRaw) ∧
      w' = { w with
        client := (w.client.confirmDict aid timestampRaw nowTs).1
        inFlight := w.inFlight.eraseIdx i } := by
  obtain ⟨packet, hpacket, h⟩ := Option.bind_eq_some_iff.mp h
  split at h
  case isFalse => cases h
  rename_i hready
  obtain ⟨client', hclient, h⟩ := Option.bind_eq_some_iff.mp h
  cases h
  rcases hok.messages packet (List.mem_of_getElem? hpacket) with
    ⟨cmd, tid, timestampRaw, body, hcmd, rfl⟩ | ⟨timestampRaw, rfl, hserver⟩
  · have hhead : cmd = Cmd.secureDictReady := hready
    rw [hhead] at hcmd
    cases hcmd
  · obtain ⟨hstore, hsilent⟩ := handOver_ready w.client aid timestampRaw nowTs
    rw [hstore] at hclient
    cases hclient
    refine ⟨timestampRaw, hpacket, hserver, ?_⟩
    rw [hsilent, Option.toList_none, List.append_nil]

theorem answer_keeps (hok : ExchangeOk aid w) {i : Nat} {nowTs : UInt64}
    (hnoted : AnswersNoted aid w (.answer i nowTs))
    (h : exchangeStep aid w (.answer i nowTs) = some w') : ExchangeOk aid w' := by
  obtain ⟨timestampRaw, hpacket, hserver, rfl⟩ := answer_cases hok h
  have hmessages := messages_left hok.messages (rfl : w.server.getKey aid = _) i
  rcases sessionOrNew_modify w.client aid (keeps_dictConfirmed aid timestampRaw nowTs) with
    hnew | ⟨-, hsame⟩
  · refine ⟨hmessages, ?_, hok.served, ?_⟩
    · simp only [confirmDict, hnew]
      exact noted_dictConfirmed hok.noted timestampRaw nowTs
    · intro key hkey
      obtain ⟨hset, -, hkey'⟩ :=
        key_dictConfirmed (w.client.sessionOrNew aid) aid timestampRaw nowTs
      rw [getKey_eq] at hkey
      simp only [confirmDict, hnew, hset, hkey', if_true, Option.some.injEq] at hkey
      simp only [hserver, Option.some.injEq]
      rw [← hkey]
      split
      · rename_i hpending
        rw [hok.noted hpending, hnoted _ hpacket hpending, readyPacket_ts]
      · rfl
  · refine ⟨hmessages, ?_, hok.served, ?_⟩
    · simp only [confirmDict, hsame]
      exact hok.noted
    · simp only [confirmDict, hsame]
      exact hok.confirmed

theorem answer_loses (hok : ExchangeOk aid w) {i : Nat} {nowTs : UInt64}
    (hnoted : ¬ AnswersNoted aid w (.answer i nowTs))
    (h : exchangeStep aid w (.answer i nowTs) = some w') : ¬ KeysAgree aid w' := by
  obtain ⟨timestampRaw, hpacket, hserver, rfl⟩ := answer_cases hok h
  simp only [AnswersNoted, hpacket, Option.some.injEq, forall_eq', readyPacket_ts,
    Classical.not_imp] at hnoted
  obtain ⟨hpending, hdiffer⟩ := hnoted
  intro hagree
  apply hdiffer
  rw [← hok.noted hpending]
  apply hagree _ _ _ hserver
  rcases sessionOrNew_modify w.client aid (keeps_dictConfirmed aid timestampRaw nowTs) with
    hnew | ⟨hnone, -⟩
  · obtain ⟨hset, -, hkey⟩ := key_dictConfirmed (w.client.sessionOrNew aid) aid timestampRaw nowTs
    rw [hpending, if_pos rfl] at hkey
    rw [getKey_eq]
    simp only [confirmDict, hnew, hset, hkey, if_true]
  · rw [sessionOrNew, hnone, Option.getD_none] at hpending
    cases hpending

end

/-! ## Runs -/

theorem exchangeStep_keeps (aid : UInt32) (w : KeyExchange) (e : ExchangeEvent) (w' : KeyExchange)
    (hok : ExchangeOk aid w) (hnoted : AnswersNoted aid w e)
    (h : exchangeStep aid w e = some w') : ExchangeOk aid w' := by
  cases e with
  | send cmd tid timestampRaw nowTs body => exact send_keeps hok h
  | serve i nowTs => exact serve_keeps hok h
  | answer i nowTs => exact answer_keeps hok hnoted h
  | lose i => exact lose_keeps hok h

theorem exchangeStep_loses (aid : UInt32) (w : KeyExchange) (e : ExchangeEvent) (w' : KeyExchange)
    (hok : ExchangeOk aid w) (hnoted : ¬ AnswersNoted aid w e)
    (h : exchangeStep aid w e = some w') : ¬ KeysAgree aid w' := by
  cases e with
  | answer i nowTs => exact answer_loses hok hnoted h
  | send => exact absurd trivial hnoted
  | serve => exact absurd trivial hnoted
  | lose => exact absurd trivial hnoted

/-- The keys of the two parties agree throughout a run exactly if each answer finds the
client with the key of its timestamp. -/
theorem keys_agree_iff {aid : UInt32} {clientExpire serverExpire : UInt64}
    {es : List ExchangeEvent} {w : KeyExchange}
    (hrun : run (exchangeStep aid) (.init clientExpire serverExpire) es = some w) :
    Always (exchangeStep aid) (KeysAgree aid) (.init clientExpire serverExpire) es ↔
      Each (exchangeStep aid) (AnswersNoted aid) (.init clientExpire serverExpire) es :=
  always_iff_each (exchangeStep aid) (exchangeStep_keeps aid) (fun _ h => h.keysAgree)
    (exchangeStep_loses aid) (exchangeOk_init aid clientExpire serverExpire) hrun

/-- One frame, its answer, and a second frame after that. -/
def answeredFirst : List ExchangeEvent :=
  [.send Cmd.dataFull 1 1 100 (ascii "A.U.1|T>m:v|"), .serve 0 100, .answer 0 100,
    .send Cmd.dataFull 1 2 101 (ascii "A.U.2|T>m:v|")]

theorem answeredFirst_keys_agree_iff :
    Always (exchangeStep 1) (KeysAgree 1) (.init 60 60) answeredFirst ↔
      Each (exchangeStep 1) (AnswersNoted 1) (.init 60 60) answeredFirst :=
  keys_agree_iff (Option.some_get
    (by decide +kernel : (run (exchangeStep 1) (.init 60 60) answeredFirst).isSome)).symm

/-- A second frame is sent before the answer to the first one arrives. -/
def sentBeforeAnswer : List ExchangeEvent :=
  [.send Cmd.dataFull 1 1 100 (ascii "A.U.1|T>m:v|"),
    .send Cmd.dataFull 1 2 101 (ascii "A.U.2|T>m:v|"), .serve 0 102, .answer 1 103]

/-- The server has the key of the first frame, the client that of the second. -/
theorem second_send_splits_keys :
    ∃ w, run (exchangeStep 1) (.init 60 60) sentBeforeAnswer = some w ∧
      w.client.getKey 1 = some (deriveKey 1 2) ∧ w.server.getKey 1 = some (deriveKey 1 1) ∧
      ¬ KeysAgree 1 w := by
  have hrun := Option.some_get (x := run (exchangeStep 1) (.init 60 60) sentBeforeAnswer)
    (by decide +kernel)
  have hclient : ((run (exchangeStep 1) (.init 60 60) sentBeforeAnswer).get
      (by decide +kernel)).client.getKey 1 = some (deriveKey 1 2) := by
    decide +kernel
  have hserver : ((run (exchangeStep 1) (.init 60 60) sentBeforeAnswer).get
      (by decide +kernel)).server.getKey 1 = some (deriveKey 1 1) := by
    decide +kernel
  refine ⟨_, hrun.symm, hclient, hserver, fun h => ?_⟩
  have hsame := h _ _ hclient hserver
  exact absurd hsame (by decide +kernel)

end Osfx
