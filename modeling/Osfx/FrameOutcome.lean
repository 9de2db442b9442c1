import Osfx.Replay

/-!
# What becomes of a packet

`FrameOutcome` lists what a data frame with a right CRC16 can come to: it is late, it
is secure and its aid has no key, or it is accepted, and then it confirms the key of
its aid, or its channel, or neither. `OtherOutcome` lists what any other packet can do to
the store. Together they say what `osfx_hs_classify_dispatch` does to a session store.
-/

namespace Osfx

open SecureStore

variable {n : Nat}

namespace SecureStore

/-- The store once a timestamp has been checked. -/
def checked (store : SecureStore) (aid : UInt32) (timestampRaw nowTs : UInt64) : SecureStore :=
  (store.checkAndUpdateTimestamp aid timestampRaw nowTs).1

/-- A check of a timestamp leaves the channel alone. -/
theorem isChannelConfirmed_check (store : SecureStore) (aid : UInt32)
    (timestampRaw nowTs : UInt64) :
    (store.checked aid timestampRaw nowTs).isChannelConfirmed aid =
      store.isChannelConfirmed aid := by
  unfold isChannelConfirmed checked
  rcases checkAndUpdateTimestamp_cases store aid timestampRaw nowTs with
    ⟨-, -, hk⟩ | ⟨-, -, hk⟩
  · rw [hk aid, if_pos rfl]
    cases hs : store.session aid with
    | none => simp only [sessionOrNew, hs, Option.getD_none]; rfl
    | some s => simp only [sessionOrNew, hs, Option.getD_some]
  · rw [hk aid, if_pos rfl]
    cases store.session aid <;> rfl

end SecureStore

/-- The result of a data frame with a right CRC16, before its session is looked at. -/
def frameResult (packet : Bytes) (pm : PacketMeta) : HsResult :=
  ⟨.data, packet.getD 0 0, cmdNormalizeData (packet.getD 0 0), pm.sourceAid, true, .none, .none⟩

/-- The command is the plaintext one. -/
def Plaintext (packet : Bytes) : Prop := packet.getD 0 0 = cmdNormalizeData (packet.getD 0 0)

/-- What a data frame with a right CRC16 comes to. -/
inductive FrameOutcome (store : SecureStore) (d : Delivery n) (pm : PacketMeta) :
    HsOutcome n → Prop
  | late {reject : HsReject} : ¬ store.Admits pm.sourceAid pm.timestampRaw →
      reject = .replay ∨ reject = .outOfOrder →
      FrameOutcome store d pm ⟨false, (frameResult d.packet pm).setReject reject,
        d.ctx (store.checked pm.sourceAid pm.timestampRaw d.nowTs)⟩
  | noKey : store.Admits pm.sourceAid pm.timestampRaw → ¬ Plaintext d.packet →
      store.shouldEncrypt pm.sourceAid = false →
      FrameOutcome store d pm ⟨false, (frameResult d.packet pm).setReject .noSession,
        d.ctx (store.checked pm.sourceAid pm.timestampRaw d.nowTs)⟩
  | confirmsKey : store.Admits pm.sourceAid pm.timestampRaw → Plaintext d.packet →
      store.shouldEncrypt pm.sourceAid = false →
      FrameOutcome store d pm ⟨true,
        (frameResult d.packet pm).writeResponse
          (buildSecureDictReady pm.sourceAid pm.timestampRaw 16),
        d.ctx ((store.checked pm.sourceAid pm.timestampRaw d.nowTs).confirmDict pm.sourceAid
          pm.timestampRaw d.nowTs).1⟩
  | confirmsChannel : store.Admits pm.sourceAid pm.timestampRaw → ¬ Plaintext d.packet →
      store.shouldEncrypt pm.sourceAid = true → store.isChannelConfirmed pm.sourceAid = false →
      FrameOutcome store d pm ⟨true,
        (frameResult d.packet pm).writeResponse (buildSecureChannelAck pm.sourceAid 8),
        d.ctx ((store.checked pm.sourceAid pm.timestampRaw d.nowTs).markChannel pm.sourceAid
          d.nowTs).1⟩
  | passes : store.Admits pm.sourceAid pm.timestampRaw →
      store.shouldEncrypt pm.sourceAid = true →
      Plaintext d.packet ∨ store.isChannelConfirmed pm.sourceAid = true →
      FrameOutcome store d pm ⟨true, frameResult d.packet pm,
        d.ctx (store.checked pm.sourceAid pm.timestampRaw d.nowTs)⟩

theorem dispatch_frame {d : Delivery n} {pm : PacketMeta} (hmeta : dataMeta d.packet = some pm)
    (hcrc : pm.crc16Ok = true) (store : SecureStore) :
    FrameOutcome store d pm (d.dispatch store) := by
  have hencrypt := shouldEncrypt_check store pm.sourceAid pm.timestampRaw d.nowTs
  have hchannel := isChannelConfirmed_check store pm.sourceAid pm.timestampRaw d.nowTs
  have hcheck := checkAndUpdateTimestamp_cases store pm.sourceAid pm.timestampRaw d.nowTs
  have hsession : d.dispatch store =
      dispatchSession (d.ctx store) store pm (frameResult d.packet pm) :=
    dispatch_session hmeta hcrc store
  have hlate := @FrameOutcome.late n store d pm
  have hnoKey := @FrameOutcome.noKey n store d pm
  have hkey := @FrameOutcome.confirmsKey n store d pm
  have hmark := @FrameOutcome.confirmsChannel n store d pm
  have hpass := @FrameOutcome.passes n store d pm
  rw [hsession]
  simp only [checked] at hchannel hlate hnoKey hkey hmark hpass
  simp only [dispatchSession, Delivery.ctx] at *
  generalize store.checkAndUpdateTimestamp pm.sourceAid pm.timestampRaw d.nowTs = checked at *
  obtain ⟨checked, verdict⟩ := checked
  rcases hcheck with ⟨hopen, rfl, -⟩ | ⟨hopen, hreject, -⟩
  · simp only at *
    split
    · rename_i hplain
      unfold dispatchPlain
      cases hs : store.shouldEncrypt pm.sourceAid with
      | true =>
        rw [hencrypt, hs, if_pos rfl]
        exact hpass hopen hs (Or.inl hplain)
      | false =>
        rw [hencrypt, hs, if_neg (by decide)]
        exact hkey hopen hplain hs
    · rename_i hsecure
      unfold dispatchSecure
      cases hs : store.shouldEncrypt pm.sourceAid with
      | false =>
        rw [hencrypt, hs, if_pos rfl]
        exact hnoKey hopen hsecure hs
      | true =>
        rw [hencrypt, hs, if_neg (by decide), hchannel]
        split
        · rename_i hconfirmed
          exact hpass hopen hs (Or.inr hconfirmed)
        · rename_i hconfirmed
          exact hmark hopen hsecure hs (Bool.eq_false_iff.mpr hconfirmed)
  · cases verdict with
    | accept => exact absurd rfl hreject
    | replay => exact hlate hopen (Or.inl rfl)
    | outOfOrder => exact hlate hopen (Or.inr rfl)

/-! ## Any other packet -/

/-- The packet is no data frame, or one whose CRC16 is wrong. -/
def NoFrame (packet : Bytes) : Prop := ∀ pm, dataMeta packet = some pm → pm.crc16Ok = false

theorem noFrame_or_frame (packet : Bytes) :
    NoFrame packet ∨ ∃ pm, dataMeta packet = some pm ∧ pm.crc16Ok = true := by
  by_cases h : ∃ pm, dataMeta packet = some pm ∧ pm.crc16Ok = true
  · exact Or.inr h
  · refine Or.inl fun pm hm => Bool.eq_false_iff.mpr fun hcrc => h ⟨pm, hm, hcrc⟩

/-- Of the data packets these are refused without a look at the store. -/
theorem dispatch_badFrame {d : Delivery n}
    (hdata : isDataCmd (cmdNormalizeData (d.packet.getD 0 0)) = true) (h : NoFrame d.packet) :
    ∃ r, r.response = none ∧ ∀ store, d.dispatch store = ⟨false, r, d.ctx store⟩ := by
  obtain ⟨packet, nowTs, alloc⟩ := d
  cases packet with
  | nil => exact ⟨.cleared, rfl, fun _ => rfl⟩
  | cons cmd rest =>
    rw [List.getD_cons_zero] at hdata
    have hread : dataMeta (cmd :: rest) = packetDecodeMeta (cmd :: rest) := if_pos hdata
    simp only [NoFrame, hread] at h
    simp only [Delivery.dispatch, hsClassifyDispatch, if_pos hdata, dispatchData]
    cases hm : packetDecodeMeta (cmd :: rest) with
    | none => exact ⟨_, rfl, fun _ => rfl⟩
    | some pm =>
      simp only [h pm hm, if_true]
      exact ⟨_, rfl, fun _ => rfl⟩

/-- A SECURE_DICT_READY. -/
def IsDictReady (packet : Bytes) : Prop :=
  packet.getD 0 0 = Cmd.secureDictReady ∧ packet.length = 13

/-- A SECURE_CHANNEL_ACK. -/
def IsChannelAck (packet : Bytes) : Prop :=
  packet.getD 0 0 = Cmd.secureChannelAck ∧ packet.length = 5

/-- What such a packet does to the store: it confirms a key or a channel, or nothing. -/
inductive OtherOutcome (store : SecureStore) (d : Delivery n) : HsOutcome n → Prop
  | keeps {o : HsOutcome n} : ¬ IsDictReady d.packet → ¬ IsChannelAck d.packet →
      o.ctx.secureStore = some store → OtherOutcome store d o
  | dictReady {o : HsOutcome n} : IsDictReady d.packet → o.ret = true →
      o.ctx.secureStore =
        some (store.confirmDict (packetAid d.packet) (packetReadyTs d.packet) d.nowTs).1 →
      OtherOutcome store d o
  | channelAck {o : HsOutcome n} : IsChannelAck d.packet → o.ret = true →
      o.ctx.secureStore = some (store.markChannel (packetAid d.packet) d.nowTs).1 →
      OtherOutcome store d o

theorem dispatchCtrl_outcome (d : Delivery n) (store : SecureStore) {r : HsResult}
    (hcmd : r.cmd = d.packet.getD 0 0) :
    OtherOutcome store d (dispatchCtrl (d.ctx store) d.packet r) := by
  have hidle : ∀ {o : HsOutcome n}, r.cmd ≠ Cmd.secureDictReady → r.cmd ≠ Cmd.secureChannelAck →
      o.ctx.secureStore = some store → OtherOutcome store d o := by
    intro o hready hack
    exact .keeps (fun h => hready (hcmd.trans h.1)) (fun h => hack (hcmd.trans h.1))
  have hhandled := dispatchCtrl_handled (d.ctx store) d.packet r
  generalize dispatchCtrl (d.ctx store) d.packet r = o at hhandled ⊢
  cases hhandled with
  | ping h =>
    exact hidle (by rw [h]; decide) (by rw [h]; decide)
      (congrArg HsDispatchCtx.secureStore (dispatchPing_keeps _ _ _).2)
  | timeRequest h =>
    exact hidle (by rw [h]; decide) (by rw [h]; decide)
      (congrArg HsDispatchCtx.secureStore (dispatchTimeRequest_keeps _ _ _).2)
  | idRequest h =>
    exact hidle (by rw [h]; decide) (by rw [h]; decide) (dispatchIdRequest_keeps _ _ _).2
  | dictReady hready =>
    have hhead := hcmd.symm.trans hready
    simp only [dispatchDictReady, Delivery.ctx]
    split
    · rename_i hlen
      refine .keeps (fun h => hlen h.2) (fun h => ?_) rfl
      exact absurd (hhead.symm.trans h.1) (by decide)
    · rename_i hlen
      exact .dictReady ⟨hhead, not_not.mp hlen⟩ rfl rfl
  | channelAck hack =>
    have hhead := hcmd.symm.trans hack
    simp only [dispatchChannelAck, Delivery.ctx]
    split
    · rename_i hlen
      refine .keeps (fun h => ?_) (fun h => hlen h.2) rfl
      exact absurd (hhead.symm.trans h.1) (by decide)
    · rename_i hlen
      exact .channelAck ⟨hhead, not_not.mp hlen⟩ rfl rfl
  | ignored hready hack => exact hidle hready hack rfl
  | unknown hready hack => exact hidle hready hack rfl

theorem dispatch_noFrame {d : Delivery n} (h : NoFrame d.packet) (store : SecureStore) :
    OtherOutcome store d (d.dispatch store) := by
  obtain ⟨packet, nowTs, alloc⟩ := d
  cases packet with
  | nil =>
    refine .keeps (fun h => ?_) (fun h => ?_) rfl
    · cases h.2
    · cases h.2
  | cons cmd rest =>
    by_cases hdata : isDataCmd (cmdNormalizeData cmd) = true
    · have hread : dataMeta (cmd :: rest) = packetDecodeMeta (cmd :: rest) := if_pos hdata
      have hready : ¬ IsDictReady (cmd :: rest) := by
        rintro ⟨hhead, -⟩
        rw [show cmd = Cmd.secureDictReady from hhead] at hdata
        exact absurd hdata (by decide)
      have hack : ¬ IsChannelAck (cmd :: rest) := by
        rintro ⟨hhead, -⟩
        rw [show cmd = Cmd.secureChannelAck from hhead] at hdata
        exact absurd hdata (by decide)
      simp only [NoFrame, hread] at h
      simp only [Delivery.dispatch, hsClassifyDispatch, if_pos hdata, dispatchData]
      cases hm : packetDecodeMeta (cmd :: rest) with
      | none => exact .keeps hready hack rfl
      | some pm =>
        simp only [h pm hm, if_true]
        exact .keeps hready hack rfl
    · simp only [Delivery.dispatch, hsClassifyDispatch, if_neg hdata]
      exact dispatchCtrl_outcome ⟨cmd :: rest, nowTs, alloc⟩ store rfl

end Osfx
