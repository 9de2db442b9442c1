import Osfx.HandshakeDispatch
import Osfx.Lib.Run

/-!
# Replay protection

A session keeps the timestamp of the last data frame it let through, and 0 while it
has let none through: a frame is let through if it is ahead of that. A frame with the
timestamp 0 leaves the session as if nothing had come, so that it can come again.
`accepted_increasing_iff` says that this is the only way to be accepted twice.
-/

namespace Osfx

open EventSystem

namespace SecureStore

/-- Where the windows are after a check. -/
theorem window_check (store : SecureStore) (aid : UInt32) (timestampRaw nowTs : UInt64)
    (k : UInt32) :
    (store.Admits aid timestampRaw →
      (store.checkAndUpdateTimestamp aid timestampRaw nowTs).1.window k =
        if k = aid then timestampRaw else store.window k) ∧
    (¬ store.Admits aid timestampRaw →
      (store.checkAndUpdateTimestamp aid timestampRaw nowTs).1.window k = store.window k) := by
  unfold window sessionOrNew
  rcases checkAndUpdateTimestamp_cases store aid timestampRaw nowTs with
    ⟨hopen, -, hk⟩ | ⟨hopen, -, hk⟩
  · refine ⟨fun _ => ?_, fun h => absurd hopen h⟩
    rw [hk k]
    split <;> rfl
  · refine ⟨fun h => absurd h hopen, fun _ => ?_⟩
    rw [hk k]
    split
    · rename_i h
      rw [h]
      cases store.session aid <;> rfl
    · rfl

theorem session_isSome_check (store : SecureStore) (aid : UInt32) (timestampRaw nowTs : UInt64)
    {k : UInt32} (h : (store.session k).isSome = true) :
    ((store.checkAndUpdateTimestamp aid timestampRaw nowTs).1.session k).isSome = true := by
  rcases checkAndUpdateTimestamp_cases store aid timestampRaw nowTs with
    ⟨-, -, hk⟩ | ⟨-, -, hk⟩
  · rw [hk k]
    split
    · rfl
    · exact h
  · rw [hk k]
    split
    · rename_i hka
      rw [Option.isSome_map, ← hka]
      exact h
    · exact h

/-- A check of a timestamp leaves the keys alone. -/
theorem shouldEncrypt_check (store : SecureStore) (aid : UInt32) (timestampRaw nowTs : UInt64) :
    (store.checkAndUpdateTimestamp aid timestampRaw nowTs).1.shouldEncrypt aid =
      store.shouldEncrypt aid := by
  unfold shouldEncrypt
  rcases checkAndUpdateTimestamp_cases store aid timestampRaw nowTs with
    ⟨-, -, hk⟩ | ⟨-, -, hk⟩
  · rw [hk aid, if_pos rfl]
    cases hs : store.session aid with
    | none => simp only [sessionOrNew, hs, Option.getD_none]; rfl
    | some s => simp only [sessionOrNew, hs, Option.getD_some]
  · rw [hk aid, if_pos rfl]
    cases store.session aid <;> rfl

/-- The store's windows and sessions survive: no window moves, no session goes. -/
structure Survives (store store' : SecureStore) : Prop where
  window : ∀ k, store'.window k = store.window k
  session : ∀ k, (store.session k).isSome = true → (store'.session k).isSome = true

theorem Survives.refl (store : SecureStore) : Survives store store :=
  ⟨fun _ => rfl, fun _ h => h⟩

theorem survives_confirmDict (store : SecureStore) (aid : UInt32) (timestampRaw nowTs : UInt64) :
    Survives store (store.confirmDict aid timestampRaw nowTs).1 where
  window := window_modify store aid (keeps_dictConfirmed aid timestampRaw nowTs) fun s =>
    lastDataTimestamp_dictConfirmed s aid timestampRaw nowTs
  session _ := session_isSome_modify store aid (keeps_dictConfirmed aid timestampRaw nowTs)

theorem survives_markChannel (store : SecureStore) (aid : UInt32) (nowTs : UInt64) :
    Survives store (store.markChannel aid nowTs).1 where
  window := window_modify store aid (keeps_channelMarked nowTs) fun _ => rfl
  session _ := session_isSome_modify store aid (keeps_channelMarked nowTs)

end SecureStore

open SecureStore

/-! ## One packet -/

variable {n : Nat}

theorem setReject_kind (r : HsResult) (reject : HsReject) :
    (r.setReject reject).kind = r.kind := rfl

@[simp] theorem writeResponse_kind (r : HsResult) (data : Option Bytes) :
    (r.writeResponse data).kind = r.kind := by
  unfold HsResult.writeResponse
  split
  · rfl
  · split <;> rfl

@[simp] theorem maybeWriteNackSeq_kind (r : HsResult) (seq : UInt16) (reason : Bytes) :
    (r.maybeWriteNackSeq seq reason).kind = r.kind :=
  writeResponse_kind r _

/-- A packet handed to a store, and what else the call reads. -/
structure Delivery (n : Nat) where
  packet : Bytes
  nowTs : UInt64
  idAllocator : Option (IdAllocator n)

/-- The context a packet is handed over with. -/
def Delivery.ctx (d : Delivery n) (store : SecureStore) : HsDispatchCtx n :=
  ⟨some store, d.idAllocator, d.nowTs⟩

def Delivery.dispatch (d : Delivery n) (store : SecureStore) : HsOutcome n :=
  hsClassifyDispatch (d.ctx store) d.packet

/-- A data frame was accepted. -/
def HsOutcome.acceptedData (o : HsOutcome n) : Bool := o.ret && o.result.kind == .data

/-- The outcome has a store, with the windows and sessions of `store`. -/
def HsOutcome.Survives (store : SecureStore) (o : HsOutcome n) : Prop :=
  ∃ store', o.ctx.secureStore = some store' ∧ SecureStore.Survives store store'

theorem dispatchPing_keeps (ctx : HsDispatchCtx n) (packet : Bytes) (r : HsResult) :
    (dispatchPing ctx packet r).result.kind = r.kind ∧
      (dispatchPing ctx packet r).ctx = ctx := by
  unfold dispatchPing
  split <;> simp [setReject_kind]

theorem dispatchTimeRequest_keeps (ctx : HsDispatchCtx n) (packet : Bytes) (r : HsResult) :
    (dispatchTimeRequest ctx packet r).result.kind = r.kind ∧
      (dispatchTimeRequest ctx packet r).ctx = ctx := by
  unfold dispatchTimeRequest
  split <;> simp [setReject_kind]

theorem dispatchIdRequest_keeps (ctx : HsDispatchCtx n) (packet : Bytes) (r : HsResult) :
    (dispatchIdRequest ctx packet r).result.kind = r.kind ∧
      (dispatchIdRequest ctx packet r).ctx.secureStore = ctx.secureStore := by
  unfold dispatchIdRequest
  split
  · simp [setReject_kind]
  · split
    · simp [setReject_kind]
    · split <;> simp

theorem dispatchDictReady_keeps (d : Delivery n) (store : SecureStore) (r : HsResult) :
    (dispatchDictReady (d.ctx store) d.packet r).result.kind = r.kind ∧
      (dispatchDictReady (d.ctx store) d.packet r).Survives store := by
  simp only [dispatchDictReady, Delivery.ctx]
  split
  · exact ⟨rfl, store, rfl, .refl store⟩
  · exact ⟨rfl, _, rfl, survives_confirmDict store _ _ _⟩

theorem dispatchChannelAck_keeps (d : Delivery n) (store : SecureStore) (r : HsResult) :
    (dispatchChannelAck (d.ctx store) d.packet r).result.kind = r.kind ∧
      (dispatchChannelAck (d.ctx store) d.packet r).Survives store := by
  simp only [dispatchChannelAck, Delivery.ctx]
  split
  · exact ⟨rfl, store, rfl, .refl store⟩
  · exact ⟨rfl, _, rfl, survives_markChannel store _ _⟩

/-- The handlers of control packets. -/
inductive Handled (ctx : HsDispatchCtx n) (packet : Bytes) (r : HsResult) : HsOutcome n → Prop
  | ping : r.cmd = Cmd.ping → Handled ctx packet r (dispatchPing ctx packet r)
  | timeRequest : r.cmd = Cmd.timeRequest →
      Handled ctx packet r (dispatchTimeRequest ctx packet r)
  | idRequest : r.cmd = Cmd.idRequest → Handled ctx packet r (dispatchIdRequest ctx packet r)
  | dictReady : r.cmd = Cmd.secureDictReady →
      Handled ctx packet r (dispatchDictReady ctx packet r)
  | channelAck : r.cmd = Cmd.secureChannelAck →
      Handled ctx packet r (dispatchChannelAck ctx packet r)
  | ignored : r.cmd ≠ Cmd.secureDictReady → r.cmd ≠ Cmd.secureChannelAck →
      Handled ctx packet r ⟨true, r, ctx⟩
  | unknown : r.cmd ≠ Cmd.secureDictReady → r.cmd ≠ Cmd.secureChannelAck →
      Handled ctx packet r ⟨false, { r with kind := .unknown }.setReject .unsupported, ctx⟩

theorem dispatchCtrl_handled (ctx : HsDispatchCtx n) (packet : Bytes) (r : HsResult) :
    Handled ctx packet r (dispatchCtrl ctx packet r) := by
  unfold dispatchCtrl
  split
  · exact .ping (by assumption)
  split
  · exact .timeRequest (by assumption)
  split
  · exact .idRequest (by assumption)
  split
  · exact .dictReady (by assumption)
  split
  · exact .channelAck (by assumption)
  split
  · exact .ignored (by assumption) (by assumption)
  · exact .unknown (by assumption) (by assumption)

/-- A control packet is no data frame and leaves the windows alone. -/
theorem dispatchCtrl_keeps (d : Delivery n) (store : SecureStore) {r : HsResult}
    (hkind : r.kind = .ctrl) :
    (dispatchCtrl (d.ctx store) d.packet r).result.kind ≠ .data ∧
      (dispatchCtrl (d.ctx store) d.packet r).Survives store := by
  have hctrl : ∀ {k : HsKind}, k = r.kind → k ≠ .data := by
    rintro k rfl
    rw [hkind]
    decide
  have hhandled := dispatchCtrl_handled (d.ctx store) d.packet r
  generalize dispatchCtrl (d.ctx store) d.packet r = o at hhandled ⊢
  cases hhandled with
  | ping =>
    obtain ⟨hk, hctx⟩ := dispatchPing_keeps (d.ctx store) d.packet r
    exact ⟨hctrl hk, store, by rw [hctx]; rfl, .refl store⟩
  | timeRequest =>
    obtain ⟨hk, hctx⟩ := dispatchTimeRequest_keeps (d.ctx store) d.packet r
    exact ⟨hctrl hk, store, by rw [hctx]; rfl, .refl store⟩
  | idRequest =>
    obtain ⟨hk, hctx⟩ := dispatchIdRequest_keeps (d.ctx store) d.packet r
    exact ⟨hctrl hk, store, by rw [hctx]; rfl, .refl store⟩
  | dictReady =>
    obtain ⟨hk, hs⟩ := dispatchDictReady_keeps d store r
    exact ⟨hctrl hk, hs⟩
  | channelAck =>
    obtain ⟨hk, hs⟩ := dispatchChannelAck_keeps d store r
    exact ⟨hctrl hk, hs⟩
  | ignored => exact ⟨hctrl rfl, store, rfl, .refl store⟩
  | unknown => exact ⟨(by decide : HsKind.unknown ≠ .data), store, rfl, .refl store⟩

theorem dispatchPlain_keeps (d : Delivery n) (before store : SecureStore) (pm : PacketMeta)
    {r : HsResult} (hkind : r.kind = .data) :
    (dispatchPlain (d.ctx before) store pm r).acceptedData = true ∧
      (dispatchPlain (d.ctx before) store pm r).Survives store := by
  unfold dispatchPlain
  split
  · exact ⟨by simp [HsOutcome.acceptedData, hkind], store, rfl, .refl store⟩
  · exact ⟨by simp [HsOutcome.acceptedData, hkind], _, rfl, survives_confirmDict store _ _ _⟩

theorem dispatchSecure_keeps (d : Delivery n) (before store : SecureStore) (pm : PacketMeta)
    {r : HsResult} (hkind : r.kind = .data) :
    (dispatchSecure (d.ctx before) store pm r).acceptedData = store.shouldEncrypt pm.sourceAid ∧
      (dispatchSecure (d.ctx before) store pm r).Survives store := by
  unfold dispatchSecure
  cases hkey : store.shouldEncrypt pm.sourceAid with
  | false => exact ⟨rfl, store, rfl, .refl store⟩
  | true =>
    simp only [Bool.true_eq_false, if_false]
    split
    · exact ⟨by simp [HsOutcome.acceptedData, hkind], store, rfl, .refl store⟩
    · exact ⟨by simp [HsOutcome.acceptedData, hkind], _, rfl, survives_markChannel store _ _⟩

/-- What a data frame with a right CRC16 does: it is accepted if the window admits it and
it can be read, and the window moves whenever it admits it. -/
theorem dispatchSession_cases (d : Delivery n) (store : SecureStore) (pm : PacketMeta)
    {r : HsResult} (hkind : r.kind = .data) :
    ∃ store', (dispatchSession (d.ctx store) store pm r).ctx.secureStore = some store' ∧
      (∀ k, (store.session k).isSome = true → (store'.session k).isSome = true) ∧
      ((store.Admits pm.sourceAid pm.timestampRaw ∧
          ((dispatchSession (d.ctx store) store pm r).acceptedData = true ↔
            r.cmd = r.baseCmd ∨ store.shouldEncrypt pm.sourceAid = true) ∧
          (store'.session pm.sourceAid).isSome = true ∧
          ∀ k, store'.window k = if k = pm.sourceAid then pm.timestampRaw else store.window k) ∨
        (¬ store.Admits pm.sourceAid pm.timestampRaw ∧
          (dispatchSession (d.ctx store) store pm r).acceptedData = false ∧
          ∀ k, store'.window k = store.window k)) := by
  have hsession := fun k => session_isSome_check store pm.sourceAid pm.timestampRaw d.nowTs (k := k)
  have hwindow := window_check store pm.sourceAid pm.timestampRaw d.nowTs
  have hkey := shouldEncrypt_check store pm.sourceAid pm.timestampRaw d.nowTs
  have hcheck := checkAndUpdateTimestamp_cases store pm.sourceAid pm.timestampRaw d.nowTs
  simp only [dispatchSession, Delivery.ctx]
  generalize store.checkAndUpdateTimestamp pm.sourceAid pm.timestampRaw d.nowTs = checked at *
  obtain ⟨checked, verdict⟩ := checked
  rcases hcheck with ⟨hopen, rfl, hstore⟩ | ⟨hopen, hreject, -⟩
  · simp only at hsession hwindow hkey hstore ⊢
    have hsome : (checked.session pm.sourceAid).isSome = true := by
      rw [hstore, if_pos rfl]
      rfl
    split
    · rename_i hplain
      obtain ⟨haccept, store', hs, hkeep⟩ := dispatchPlain_keeps d store checked pm hkind
      refine ⟨store', hs, fun k h => hkeep.session k (hsession k h), Or.inl ⟨hopen, ?_, ?_, ?_⟩⟩
      · exact ⟨fun _ => Or.inl hplain, fun _ => haccept⟩
      · exact hkeep.session _ hsome
      · intro k
        rw [hkeep.window, (hwindow k).1 hopen]
    · rename_i hsecure
      obtain ⟨haccept, store', hs, hkeep⟩ := dispatchSecure_keeps d store checked pm hkind
      refine ⟨store', hs, fun k h => hkeep.session k (hsession k h), Or.inl ⟨hopen, ?_, ?_, ?_⟩⟩
      · rw [← hkey, ← haccept]
        exact ⟨Or.inr, fun h => h.resolve_left hsecure⟩
      · exact hkeep.session _ hsome
      · intro k
        rw [hkeep.window, (hwindow k).1 hopen]
  · simp only at hsession hwindow ⊢
    have hsame := fun k => (hwindow k).2 hopen
    cases verdict with
    | accept => exact absurd rfl hreject
    | replay => exact ⟨checked, rfl, hsession, Or.inr ⟨hopen, rfl, hsame⟩⟩
    | outOfOrder => exact ⟨checked, rfl, hsession, Or.inr ⟨hopen, rfl, hsame⟩⟩

/-- The fields of a packet that is a data frame. -/
def dataMeta (packet : Bytes) : Option PacketMeta :=
  if isDataCmd (cmdNormalizeData (packet.getD 0 0)) then packetDecodeMeta packet else none

theorem dataMeta_some {packet : Bytes} {pm : PacketMeta} (h : dataMeta packet = some pm) :
    isDataCmd (cmdNormalizeData (packet.getD 0 0)) = true ∧ packetDecodeMeta packet = some pm := by
  unfold dataMeta at h
  split at h
  · rename_i hdata
    exact ⟨hdata, h⟩
  · cases h

/-- Data is sent in the clear, or the aid has a key. -/
def Readable (store : SecureStore) (packet : Bytes) (aid : UInt32) : Prop :=
  packet.getD 0 0 = cmdNormalizeData (packet.getD 0 0) ∨ store.shouldEncrypt aid = true

/-- The packet is a data frame that is accepted. -/
def Accepts (store : SecureStore) (packet : Bytes) (pm : PacketMeta) : Prop :=
  dataMeta packet = some pm ∧ pm.crc16Ok = true ∧ store.Admits pm.sourceAid pm.timestampRaw ∧
    Readable store packet pm.sourceAid

/-- What is accepted of a data frame are its fields. -/
theorem Accepts.eq {store : SecureStore} {packet : Bytes} {pm pm' : PacketMeta}
    (h : Accepts store packet pm') (hmeta : dataMeta packet = some pm) : pm' = pm := by
  have hmeta' := h.1
  rw [hmeta] at hmeta'
  exact (Option.some.inj hmeta').symm

/-- A data frame with a right CRC16 goes on to its session. -/
theorem dispatch_session {d : Delivery n} {pm : PacketMeta} (hmeta : dataMeta d.packet = some pm)
    (hcrc : pm.crc16Ok = true) (store : SecureStore) :
    d.dispatch store = dispatchSession (d.ctx store) store pm
      ⟨.data, d.packet.getD 0 0, cmdNormalizeData (d.packet.getD 0 0), pm.sourceAid, true, .none,
        .none⟩ := by
  obtain ⟨packet, nowTs, alloc⟩ := d
  obtain ⟨hdata, hdecode⟩ := dataMeta_some hmeta
  cases packet with
  | nil => cases hdecode
  | cons cmd rest =>
    rw [List.getD_cons_zero] at hdata
    simp only at hdecode
    simp only [Delivery.dispatch, hsClassifyDispatch, if_pos hdata, dispatchData, hdecode, hcrc,
      Bool.true_eq_false, if_false, Delivery.ctx, HsResult.cleared, List.getD_cons_zero]

/-- Any other packet is not accepted as data and leaves the windows alone. -/
theorem dispatch_other {d : Delivery n}
    (h : ∀ pm, dataMeta d.packet = some pm → pm.crc16Ok = false) (store : SecureStore) :
    (d.dispatch store).acceptedData = false ∧ (d.dispatch store).Survives store := by
  obtain ⟨packet, nowTs, alloc⟩ := d
  cases packet with
  | nil => exact ⟨rfl, store, rfl, .refl store⟩
  | cons cmd rest =>
    by_cases hdata : isDataCmd (cmdNormalizeData cmd) = true
    · have hread : dataMeta (cmd :: rest) = packetDecodeMeta (cmd :: rest) := if_pos hdata
      simp only [hread] at h
      simp only [Delivery.dispatch, hsClassifyDispatch, if_pos hdata, dispatchData]
      cases hm : packetDecodeMeta (cmd :: rest) with
      | none => exact ⟨rfl, store, rfl, .refl store⟩
      | some pm =>
        have hcrc := h pm hm
        simp only [hcrc, if_true]
        exact ⟨rfl, store, rfl, .refl store⟩
    · simp only [Delivery.dispatch, hsClassifyDispatch, if_neg hdata]
      obtain ⟨hkind, hkeep⟩ := dispatchCtrl_keeps ⟨cmd :: rest, nowTs, alloc⟩ store
        (r := ⟨.ctrl, cmd, cmdNormalizeData cmd, 0, true, .none, .none⟩) rfl
      refine ⟨Bool.eq_false_iff.mpr fun haccept => hkind ?_, hkeep⟩
      simp only [HsOutcome.acceptedData, Bool.and_eq_true, beq_iff_eq] at haccept
      exact haccept.2

/-- A packet either is accepted as data and moves the window of its sender, or is not
and moves no window back. -/
theorem dispatch_cases (d : Delivery n) (store : SecureStore) :
    ∃ store', (d.dispatch store).ctx.secureStore = some store' ∧
      (∀ k, (store.session k).isSome = true → (store'.session k).isSome = true) ∧
      ((∃ pm, Accepts store d.packet pm ∧ (d.dispatch store).acceptedData = true ∧
          (store'.session pm.sourceAid).isSome = true ∧
          ∀ k, store'.window k = if k = pm.sourceAid then pm.timestampRaw else store.window k) ∨
        ((∀ pm, ¬ Accepts store d.packet pm) ∧ (d.dispatch store).acceptedData = false ∧
          ∀ k, store.window k ≤ store'.window k)) := by
  by_cases hdata : ∃ pm, dataMeta d.packet = some pm ∧ pm.crc16Ok = true
  · obtain ⟨pm, hmeta, hcrc⟩ := hdata
    obtain ⟨store', hstore, hsession, hcase⟩ := dispatchSession_cases d store pm
      (r := ⟨.data, d.packet.getD 0 0, cmdNormalizeData (d.packet.getD 0 0), pm.sourceAid, true,
        .none, .none⟩) rfl
    rw [← dispatch_session hmeta hcrc] at hstore hcase
    refine ⟨store', hstore, hsession, ?_⟩
    rcases hcase with ⟨hopen, haccept, hsome, hwindow⟩ | ⟨hopen, haccept, hwindow⟩
    · by_cases hread : Readable store d.packet pm.sourceAid
      · exact Or.inl ⟨pm, ⟨hmeta, hcrc, hopen, hread⟩, haccept.mpr hread, hsome, hwindow⟩
      · refine Or.inr ⟨?_, Bool.eq_false_iff.mpr fun h => hread (haccept.mp h), fun k => ?_⟩
        · intro pm' haccepts
          rw [haccepts.eq hmeta] at haccepts
          exact hread haccepts.2.2.2
        · rw [hwindow]
          split
          · rename_i hk
            rw [hk]
            exact SecureStore.window_le_of_admits hopen
          · exact UInt64.le_refl _
    · refine Or.inr ⟨?_, haccept, fun k => ?_⟩
      · intro pm' haccepts
        rw [haccepts.eq hmeta] at haccepts
        exact hopen haccepts.2.2.1
      · rw [hwindow]
        exact UInt64.le_refl _
  · have hcrc : ∀ pm, dataMeta d.packet = some pm → pm.crc16Ok = false := by
      intro pm hmeta
      exact Bool.eq_false_iff.mpr fun hcrc => hdata ⟨pm, hmeta, hcrc⟩
    obtain ⟨haccept, store', hstore, hkeep⟩ := dispatch_other hcrc store
    refine ⟨store', hstore, hkeep.session, Or.inr ⟨?_, haccept, fun k => ?_⟩⟩
    · rintro pm ⟨hmeta, hcrc, -⟩
      exact hdata ⟨pm, hmeta, hcrc⟩
    · rw [hkeep.window]
      exact UInt64.le_refl _

/-! ## Runs -/

/-- A store and the data frames it has accepted, each with its aid and timestamp. -/
structure Receiver where
  store : SecureStore
  accepted : List (UInt32 × UInt64)

/-- The next packet, of any kind and at any time. -/
def receive (w : Receiver) (d : Delivery n) : Option Receiver :=
  (d.dispatch w.store).ctx.secureStore.map fun store => {
    store
    accepted :=
      if (d.dispatch w.store).acceptedData then
        w.accepted ++ (dataMeta d.packet).toList.map fun pm => (pm.sourceAid, pm.timestampRaw)
      else w.accepted }

/-- The timestamps accepted for an aid are strictly increasing. -/
def StrictlyIncreasing (w : Receiver) : Prop :=
  w.accepted.Pairwise fun a b => a.1 = b.1 → a.2 < b.2

/-- A data frame with the timestamp 0 that can be read, of an aid that still has no
window although a frame of it was accepted: that one had the timestamp 0 too. -/
def RepeatsZero (w : Receiver) (d : Delivery n) : Prop :=
  ∃ pm, dataMeta d.packet = some pm ∧ pm.crc16Ok = true ∧ pm.timestampRaw = 0 ∧
    w.store.window pm.sourceAid = 0 ∧ Readable w.store d.packet pm.sourceAid ∧
    ∃ a ∈ w.accepted, a.1 = pm.sourceAid

/-- Behind the windows: what was accepted is not ahead of its window, and its aid has a
session. -/
structure ReceiverOk (w : Receiver) : Prop where
  increasing : StrictlyIncreasing w
  behind : ∀ a ∈ w.accepted, a.2 ≤ w.store.window a.1
  session : ∀ a ∈ w.accepted, (w.store.session a.1).isSome = true

/-- A packet is always handled. -/
theorem receive_isSome (w : Receiver) (d : Delivery n) : (receive w d).isSome = true := by
  obtain ⟨store', hstore, -⟩ := dispatch_cases d w.store
  rw [receive, hstore]
  rfl

theorem receive_cases {w w' : Receiver} {d : Delivery n} (h : receive w d = some w') :
    (∀ k, (w.store.session k).isSome = true → (w'.store.session k).isSome = true) ∧
    ((∃ pm, Accepts w.store d.packet pm ∧
        w'.accepted = w.accepted ++ [(pm.sourceAid, pm.timestampRaw)] ∧
        (w'.store.session pm.sourceAid).isSome = true ∧
        ∀ k, w'.store.window k =
          if k = pm.sourceAid then pm.timestampRaw else w.store.window k) ∨
      ((∀ pm, ¬ Accepts w.store d.packet pm) ∧ w'.accepted = w.accepted ∧
        ∀ k, w.store.window k ≤ w'.store.window k)) := by
  obtain ⟨store', hstore, hsession, hcase⟩ := dispatch_cases d w.store
  simp only [receive, hstore, Option.map_some, Option.some.injEq] at h
  subst h
  refine ⟨hsession, ?_⟩
  rcases hcase with ⟨pm, haccepts, haccept, hsome, hwindow⟩ | ⟨hnone, haccept, hwindow⟩
  · refine Or.inl ⟨pm, haccepts, ?_, hsome, hwindow⟩
    simp only [haccept, haccepts.1, if_true, Option.toList_some, List.map_singleton]
  · refine Or.inr ⟨hnone, ?_, hwindow⟩
    simp only [haccept, Bool.false_eq_true, if_false]

/-- An accepted frame is ahead of all that was accepted of its aid, unless it repeats a
timestamp 0. -/
theorem ahead_of_accepted {w : Receiver} {d : Delivery n} (hok : ReceiverOk w) {pm : PacketMeta}
    (haccepts : Accepts w.store d.packet pm) (hzero : ¬ RepeatsZero w d) :
    ∀ a ∈ w.accepted, a.1 = pm.sourceAid → a.2 < pm.timestampRaw := by
  intro a ha haid
  obtain ⟨hmeta, hcrc, hopen, hread⟩ := haccepts
  have hbehind := hok.behind a ha
  rw [haid, UInt64.le_iff_toNat_le] at hbehind
  rw [UInt64.lt_iff_toNat_lt]
  rcases hopen.2 with hnone | hahead
  · have hpos : pm.timestampRaw ≠ 0 :=
      fun h => hzero ⟨pm, hmeta, hcrc, h, hnone, hread, a, ha, haid⟩
    have hne : pm.timestampRaw.toNat ≠ 0 := fun h => hpos (UInt64.toNat.inj h)
    rw [hnone] at hbehind
    have : (0 : UInt64).toNat = 0 := rfl
    omega
  · rw [UInt64.lt_iff_toNat_lt] at hahead
    omega

theorem receive_keeps (w : Receiver) (d : Delivery n) (w' : Receiver) (hok : ReceiverOk w)
    (hzero : ¬ RepeatsZero w d) (h : receive w d = some w') : ReceiverOk w' := by
  obtain ⟨hsession, hcase⟩ := receive_cases h
  rcases hcase with ⟨pm, haccepts, hlog, hsome, hwindow⟩ | ⟨-, hlog, hwindow⟩
  · have hahead := ahead_of_accepted hok haccepts hzero
    refine ⟨?_, ?_, ?_⟩
    · unfold StrictlyIncreasing
      rw [hlog, List.pairwise_append]
      refine ⟨hok.increasing, List.pairwise_singleton _ _, fun a ha b hb hab => ?_⟩
      rw [List.mem_singleton] at hb
      subst hb
      exact hahead a ha hab
    · intro a ha
      rw [hlog, List.mem_append, List.mem_singleton] at ha
      rw [hwindow]
      rcases ha with ha | rfl
      · split
        · rename_i haid
          exact UInt64.le_of_lt (hahead a ha haid)
        · exact hok.behind a ha
      · rw [if_pos rfl]
        exact UInt64.le_refl _
    · intro a ha
      rw [hlog, List.mem_append, List.mem_singleton] at ha
      rcases ha with ha | rfl
      · exact hsession _ (hok.session a ha)
      · exact hsome
  · refine ⟨?_, ?_, ?_⟩
    · unfold StrictlyIncreasing
      rw [hlog]
      exact hok.increasing
    · intro a ha
      rw [hlog] at ha
      exact UInt64.le_trans (hok.behind a ha) (hwindow _)
    · intro a ha
      rw [hlog] at ha
      exact hsession _ (hok.session a ha)

theorem receive_loses (w : Receiver) (d : Delivery n) (w' : Receiver) (hok : ReceiverOk w)
    (hzero : ¬ ¬ RepeatsZero w d) (h : receive w d = some w') : ¬ StrictlyIncreasing w' := by
  obtain ⟨pm, hmeta, hcrc, hts, hnone, hread, a, ha, haid⟩ := Classical.not_not.mp hzero
  obtain ⟨-, hcase⟩ := receive_cases h
  have haccepts : Accepts w.store d.packet pm := by
    obtain ⟨s, hs⟩ := Option.isSome_iff_exists.mp (hok.session a ha)
    rw [haid] at hs
    obtain ⟨i, hi⟩ := findOrAlloc_isSome hs
    exact ⟨hmeta, hcrc, ⟨⟨i, s, hi⟩, Or.inl hnone⟩, hread⟩
  rcases hcase with ⟨pm', haccepts', hlog, -⟩ | ⟨hrefused, -⟩
  · have hsame := haccepts'.1
    rw [hmeta] at hsame
    cases hsame
    intro hincreasing
    unfold StrictlyIncreasing at hincreasing
    rw [hlog, List.pairwise_append] at hincreasing
    have hlt := hincreasing.2.2 a ha (pm.sourceAid, pm.timestampRaw) (List.mem_singleton.mpr rfl)
      haid
    simp only [hts] at hlt
    exact UInt64.not_lt_zero hlt
  · exact absurd haccepts (hrefused pm)

/-- On one store the timestamps accepted of each aid are strictly increasing exactly if
no frame repeats a timestamp 0. -/
theorem accepted_increasing_iff (store : SecureStore) (ds : List (Delivery n)) :
    Always receive StrictlyIncreasing ⟨store, []⟩ ds ↔
      Each receive (fun w d => ¬ RepeatsZero w d) ⟨store, []⟩ ds := by
  obtain ⟨w, hrun⟩ := Option.isSome_iff_exists.mp (run_isSome receive receive_isSome ⟨store, []⟩ ds)
  have hinit : ReceiverOk ⟨store, []⟩ := by
    refine ⟨List.Pairwise.nil, ?_, ?_⟩
    · intro a ha
      cases ha
    · intro a ha
      cases ha
  exact always_iff_each receive receive_keeps (fun _ h => h.increasing) receive_loses hinit hrun

/-- A FULL of aid 1. -/
def frameAt (ts : UInt64) : Delivery 16 :=
  ⟨packetFrame Cmd.dataFull 1 1 ts (ascii "A.U.1|T>m:v|"), 100, none⟩

/-- The same frame is accepted twice if its timestamp is 0. -/
theorem zero_timestamp_accepted_twice :
    ∃ w, run receive ⟨secureStoreInit 60, []⟩ [frameAt 0, frameAt 0] = some w ∧
      w.accepted = [(1, 0), (1, 0)] ∧ ¬ StrictlyIncreasing w := by
  have hrun := Option.some_get (x := run receive ⟨secureStoreInit 60, []⟩ [frameAt 0, frameAt 0])
    (by decide +kernel)
  have hlog : ((run receive ⟨secureStoreInit 60, []⟩ [frameAt 0, frameAt 0]).get
      (by decide +kernel)).accepted = [(1, 0), (1, 0)] := by
    decide +kernel
  refine ⟨_, hrun.symm, hlog, ?_⟩
  unfold StrictlyIncreasing
  rw [hlog]
  decide

end Osfx
