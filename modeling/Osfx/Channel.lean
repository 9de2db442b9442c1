import Osfx.Refusal
import Osfx.KeyExchange
import Osfx.SecurePacket

/-!
# Confirmed channels

A secure frame that is let through confirms the channel of its aid if there is a key,
without a look at its body. `confirmation_proved_iff` says when such a confirmation is
backed by a frame that `osfx_packet_extract_body` can read with that key: if the CRC8 the
frame carries is the one of its unmasked body.
-/

namespace Osfx

open SecureStore

namespace SecureStore

variable (store : SecureStore) (aid : UInt32)

/-- A change that does not mark a channel leaves all channels alone. -/
theorem isChannelConfirmed_modify {f : SecureSession → SecureSession} (hf : Keeps f)
    (hc : ∀ s, (f s).decryptConfirmed = s.decryptConfirmed) (k : UInt32) :
    (store.modify aid f).1.isChannelConfirmed k = store.isChannelConfirmed k := by
  rcases session_modify store aid hf with hk | ⟨-, hsame⟩
  · rw [isChannelConfirmed_eq, isChannelConfirmed_eq]
    by_cases h : k = aid
    · have hnew := (hk k).trans (if_pos h)
      rw [session_sessionOrNew hnew, hc, h]
    · simp only [sessionOrNew, (hk k).trans (if_neg h)]
  · rw [hsame]

theorem isChannelConfirmed_confirmDict (timestampRaw nowTs : UInt64) (k : UInt32) :
    (store.confirmDict aid timestampRaw nowTs).1.isChannelConfirmed k =
      store.isChannelConfirmed k := by
  refine isChannelConfirmed_modify store aid (keeps_dictConfirmed aid timestampRaw nowTs) ?_ k
  intro s
  rcases withPendingKey_cases s aid timestampRaw with ⟨-, h⟩ | ⟨-, h⟩ <;>
    simp only [SecureSession.dictConfirmed, h]

theorem isChannelConfirmed_markChannel (nowTs : UInt64) {k : UInt32} (h : k ≠ aid) :
    (store.markChannel aid nowTs).1.isChannelConfirmed k = store.isChannelConfirmed k := by
  unfold isChannelConfirmed
  rcases session_modify store aid (keeps_channelMarked nowTs) with hk | ⟨-, hsame⟩
  · rw [markChannel, hk k, if_neg h]
  · rw [markChannel, hsame]

/-- A check of a timestamp leaves all channels alone. -/
theorem isChannelConfirmed_checked (timestampRaw nowTs : UInt64) (k : UInt32) :
    (store.checked aid timestampRaw nowTs).isChannelConfirmed k = store.isChannelConfirmed k := by
  by_cases h : k = aid
  · rw [h]
    exact isChannelConfirmed_check store aid timestampRaw nowTs
  · unfold isChannelConfirmed checked
    rcases checkAndUpdateTimestamp_cases store aid timestampRaw nowTs with
      ⟨-, -, hk⟩ | ⟨-, -, hk⟩
    · rw [hk k, if_neg h]
    · rw [hk k, if_neg h]

end SecureStore

variable {n : Nat}

/-- A data packet confirms the channel of an aid, or is answered that it does. -/
def ConfirmsChannel (store : SecureStore) (d : Delivery n) (aid : UInt32) : Prop :=
  isDataCmd (cmdNormalizeData (d.packet.getD 0 0)) = true ∧
  ((∃ store', (d.dispatch store).ctx.secureStore = some store' ∧
      store.isChannelConfirmed aid = false ∧ store'.isChannelConfirmed aid = true) ∨
    ∃ answer, (d.dispatch store).result.response = some answer ∧
      answer.getD 0 0 = Cmd.secureChannelAck ∧ packetAid answer = aid)

/-- The packet can be read with the key of the aid, given room for its body. -/
def ReadWithKey (store : SecureStore) (packet : Bytes) (aid : UInt32) : Prop :=
  ∃ key, store.getKey aid = some key ∧
    (packetExtractBody packet key.toList packet.length).isSome = true

/-- A secure frame that confirms the channel of its aid: its CRC16 is right, its timestamp
is let through, and its aid has a key and no confirmed channel. -/
def Confirming (store : SecureStore) (packet : Bytes) (pm : PacketMeta) : Prop :=
  dataMeta packet = some pm ∧ pm.crc16Ok = true ∧ ¬ Plaintext packet ∧
    store.Admits pm.sourceAid pm.timestampRaw ∧ store.shouldEncrypt pm.sourceAid = true ∧
    store.isChannelConfirmed pm.sourceAid = false

/-- The CRC8 of the packet is the one of its body as the key of its aid unmasks it. -/
def BodyChecks (store : SecureStore) (packet : Bytes) (pm : PacketMeta) : Prop :=
  ∀ key, store.getKey pm.sourceAid = some key →
    crc8 (xorPayload (pm.body packet) key.toList (crc8Recv packet &&& 31).toUInt32) 0x07 0x00 =
      crc8Recv packet

def channelAckPacket (aid : UInt32) : Bytes :=
  Cmd.secureChannelAck :: Numeral.beBytes 4 aid.toNat

theorem channelAckPacket_aid (aid : UInt32) : packetAid (channelAckPacket aid) = aid := by
  have hslice : slice (channelAckPacket aid) 1 4 = Numeral.beBytes 4 aid.toNat := by
    rw [channelAckPacket, ← List.append_nil (Numeral.beBytes 4 aid.toNat)]
    exact slice_append [Cmd.secureChannelAck] _ _ rfl (Numeral.length_beBytes _ _).symm
  rw [packetAid, hslice, Numeral.u32_beBytes]

theorem writeResponse_channelAck (r : HsResult) (aid : UInt32) :
    (r.writeResponse (buildSecureChannelAck aid 8)).response = some (channelAckPacket aid) := by
  have hbuild : buildSecureChannelAck aid 8 = some (channelAckPacket aid) := if_neg (by decide)
  have hfits : ¬ (channelAckPacket aid).length > hsRespMax := by
    simp [channelAckPacket, hsRespMax]
  rw [hbuild, HsResult.writeResponse, if_neg hfits]

theorem confirming_confirms {store : SecureStore} {d : Delivery n} {pm : PacketMeta}
    (h : Confirming store d.packet pm) : ConfirmsChannel store d pm.sourceAid := by
  obtain ⟨hmeta, hcrc, hsecure, hopen, hkey, hchannel⟩ := h
  have haid := channelAckPacket_aid pm.sourceAid
  refine ⟨(dataMeta_some hmeta).1, Or.inr ⟨channelAckPacket pm.sourceAid, ?_, rfl, haid⟩⟩
  have hframe := dispatch_frame hmeta hcrc store
  generalize d.dispatch store = o at hframe
  cases hframe with
  | late hshut => exact absurd hopen hshut
  | noKey _ _ hnokey | confirmsKey _ _ hnokey =>
    rw [hkey] at hnokey
    cases hnokey
  | confirmsChannel => exact writeResponse_channelAck _ _
  | passes _ _ hpass =>
    rcases hpass with hplain | hconfirmed
    · exact absurd hplain hsecure
    · rw [hchannel] at hconfirmed
      cases hconfirmed

/-- An outcome that leaves the channel of an aid as it was and has no acknowledgement in it
confirms nothing. -/
theorem silent_confirms_nothing {store store' : SecureStore} {o : HsOutcome n} {aid : UInt32}
    (hstore : o.ctx.secureStore = some store')
    (hsame : store'.isChannelConfirmed aid = store.isChannelConfirmed aid)
    (hanswer : ∀ answer, o.result.response = some answer →
      answer.getD 0 0 ≠ Cmd.secureChannelAck) :
    ¬ ((∃ store', o.ctx.secureStore = some store' ∧ store.isChannelConfirmed aid = false ∧
        store'.isChannelConfirmed aid = true) ∨
      ∃ answer, o.result.response = some answer ∧ answer.getD 0 0 = Cmd.secureChannelAck ∧
        packetAid answer = aid) := by
  rintro (⟨store'', hstore', hno, hyes⟩ | ⟨answer, hresp, hack, -⟩)
  · rw [hstore] at hstore'
    cases hstore'
    rw [hsame, hno] at hyes
    cases hyes
  · exact hanswer answer hresp hack

/-- No other data packet confirms a channel. -/
theorem confirms_confirming {store : SecureStore} {d : Delivery n} {aid : UInt32}
    (h : ConfirmsChannel store d aid) :
    ∃ pm, Confirming store d.packet pm ∧ pm.sourceAid = aid := by
  obtain ⟨hdata, hconfirms⟩ := h
  rcases noFrame_or_frame d.packet with hother | ⟨pm, hmeta, hcrc⟩
  · obtain ⟨r, hnone, hout⟩ := dispatch_badFrame hdata hother
    rw [hout] at hconfirms
    refine absurd hconfirms (silent_confirms_nothing rfl rfl fun answer hresp => ?_)
    rw [hnone] at hresp
    cases hresp
  · have hframe := dispatch_frame hmeta hcrc store
    have hcheck := isChannelConfirmed_checked store pm.sourceAid pm.timestampRaw d.nowTs
    generalize d.dispatch store = o at hframe hconfirms
    cases hframe with
    | late | noKey | passes =>
      refine absurd hconfirms (silent_confirms_nothing rfl (hcheck aid) fun answer hresp => ?_)
      cases hresp
    | confirmsKey =>
      refine absurd hconfirms (silent_confirms_nothing rfl ?_ fun answer hresp => ?_)
      · rw [isChannelConfirmed_confirmDict, hcheck]
      · rw [writeResponse_ready] at hresp
        cases hresp
        exact (by decide : Cmd.secureDictReady ≠ Cmd.secureChannelAck)
    | confirmsChannel hopen hsecure hkey hchannel =>
      refine ⟨pm, ⟨hmeta, hcrc, hsecure, hopen, hkey, hchannel⟩, ?_⟩
      rcases hconfirms with ⟨store', hstore, hno, hyes⟩ | ⟨answer, hresp, -, haid⟩
      · cases hstore
        apply Classical.byContradiction
        intro hne
        rw [isChannelConfirmed_markChannel _ _ _ (Ne.symm hne), hcheck, hno] at hyes
        cases hyes
      · rw [writeResponse_channelAck] at hresp
        cases hresp
        rw [channelAckPacket_aid] at haid
        exact haid

/-- With the key of its aid a secure frame can be read if its body checks. -/
theorem readWithKey_iff {store : SecureStore} {packet : Bytes} {pm : PacketMeta}
    (h : Confirming store packet pm) :
    ReadWithKey store packet pm.sourceAid ↔ BodyChecks store packet pm := by
  obtain ⟨hmeta, hcrc, hsecure, -, hkey, -⟩ := h
  have hdecode := (dataMeta_some hmeta).2
  have hmasked : pm.cmd ≠ cmdNormalizeData pm.cmd := by
    rw [packetDecodeMeta_cmd hdecode]
    exact hsecure
  have hset : (store.sessionOrNew pm.sourceAid).keySet = true := by
    rw [shouldEncrypt_eq, Bool.and_eq_true] at hkey
    exact hkey.2
  have hgot : store.getKey pm.sourceAid = some (store.sessionOrNew pm.sourceAid).key := by
    rw [getKey_eq, if_pos hset]
  unfold ReadWithKey BodyChecks
  simp only [hgot, Option.some.injEq, exists_eq_left', forall_eq']
  rw [packetExtractBody_isSome hdecode (packetDecodeMeta_bodyLen hdecode), unmaskedBody,
    if_neg hmasked]
  exact and_iff_right hcrc

/-- A channel is confirmed by frames that can be read with the key of its aid exactly if
the body of the confirming frame checks. -/
theorem confirmation_proved_iff (store : SecureStore) (d : Delivery n) :
    (∀ aid, ConfirmsChannel store d aid → ReadWithKey store d.packet aid) ↔
      ∀ pm, Confirming store d.packet pm → BodyChecks store d.packet pm := by
  constructor
  · intro h pm hconfirming
    exact (readWithKey_iff hconfirming).mp (h pm.sourceAid (confirming_confirms hconfirming))
  · intro h aid hconfirms
    obtain ⟨pm, hconfirming, rfl⟩ := confirms_confirming hconfirms
    exact (readWithKey_iff hconfirming).mpr (h pm hconfirming)

/-- After a first frame of aid 1 in the clear, a secure frame whose body is not masked at
all is answered that the channel is confirmed. Read with the key, its CRC8 is wrong. -/
theorem unread_frame_confirms :
    ∃ store, ((frameAt 8).dispatch (secureStoreInit 60)).ctx.secureStore = some store ∧
      ((secureFrameAt 9).dispatch store).result.response = some (channelAckPacket 1) ∧
      ConfirmsChannel store (secureFrameAt 9) 1 ∧
      ¬ ReadWithKey store (secureFrameAt 9).packet 1 := by
  have hsome : ((frameAt 8).dispatch (secureStoreInit 60)).ctx.secureStore.isSome = true := by
    decide +kernel
  have hanswer : ((frameAt 8).dispatch (secureStoreInit 60)).ctx.secureStore.bind
      (fun store => ((secureFrameAt 9).dispatch store).result.response) =
        some (channelAckPacket 1) := by
    decide +kernel
  have hkey : ((frameAt 8).dispatch (secureStoreInit 60)).ctx.secureStore.bind
      (fun store => store.getKey 1) = some (deriveKey 1 8) := by
    decide +kernel
  have hunread : packetExtractBody (secureFrameAt 9).packet (deriveKey 1 8).toList
      (secureFrameAt 9).packet.length = none := by
    decide +kernel
  obtain ⟨store, hstore⟩ := Option.isSome_iff_exists.mp hsome
  rw [hstore, Option.bind_some] at hanswer hkey
  refine ⟨store, hstore, hanswer, ?_, ?_⟩
  · exact ⟨by decide +kernel, Or.inr ⟨_, hanswer, rfl, channelAckPacket_aid 1⟩⟩
  · rintro ⟨key, hget, hread⟩
    rw [hkey] at hget
    cases hget
    rw [hunread] at hread
    cases hread

end Osfx
