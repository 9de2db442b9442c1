import Osfx.Glue
import Osfx.KeyExchange
import Osfx.Refusal

/-!
# Expired sessions

`osfx_secure_store_cleanup` empties the slots of the sessions that have expired, but no
packet makes the glue layer call it, though it carries a `secure_expire_seconds`.
`expiry_enforced_iff` says for which packets that makes a difference.
-/

namespace Osfx

open SlotTable SecureStore

variable {n : Nat}

namespace SecureStore

/-- `osfx_secure_store_cleanup` takes the session away. -/
def Expired (store : SecureStore) (nowTs : UInt64) (s : SecureSession) : Prop :=
  nowTs > s.lastSeen ∧ nowTs - s.lastSeen > store.expireSeconds

instance (store : SecureStore) (nowTs : UInt64) (s : SecureSession) :
    Decidable (store.Expired nowTs s) :=
  inferInstanceAs (Decidable (_ ∧ _))

/-- The session an operation on an aid finds or makes. -/
def found (store : SecureStore) (aid : UInt32) : Option SecureSession :=
  (store.findOrAlloc aid).map Prod.snd

variable {store store' : SecureStore} {aid : UInt32} {s : SecureSession}

theorem found_of_some (h : store.session aid = some s) : store.found aid = some s := by
  obtain ⟨i, hi⟩ := findOrAlloc_isSome h
  rw [found, hi, Option.map_some]

theorem found_of_none (h : store.session aid = none) (hroom : store.found aid ≠ none) :
    store.found aid = some (.fresh aid) := by
  obtain ⟨s, hs⟩ := Option.ne_none_iff_exists'.mp hroom
  obtain ⟨⟨i, s'⟩, hi, rfl⟩ := Option.map_eq_some_iff.mp hs
  obtain ⟨-, hnew, -⟩ := findOrAlloc_some hi
  rw [hs, hnew, sessionOrNew, h, Option.getD_none]

theorem sessionOrNew_found (h : store.found aid = some s) : store.sessionOrNew aid = s := by
  obtain ⟨⟨i, s'⟩, hi, rfl⟩ := Option.map_eq_some_iff.mp h
  exact (findOrAlloc_some hi).2.1.symm

theorem sessionOrNew_congr (h : store.found aid = store'.found aid) :
    store.sessionOrNew aid = store'.sessionOrNew aid := by
  cases hs : store.found aid with
  | some s => rw [sessionOrNew_found hs, sessionOrNew_found (h.symm.trans hs)]
  | none =>
    have hnone : ∀ {t : SecureStore}, t.found aid = none → t.sessionOrNew aid = .fresh aid := by
      intro t ht
      rw [found, Option.map_eq_none_iff] at ht
      rw [sessionOrNew, findOrAlloc_none ht, Option.getD_none]
    rw [hnone hs, hnone (h.symm.trans hs)]

/-- The verdict on a timestamp depends on the session of the aid only. -/
theorem verdict_congr (h : store.found aid = store'.found aid) (timestampRaw nowTs : UInt64) :
    (store.checkAndUpdateTimestamp aid timestampRaw nowTs).2 =
      (store'.checkAndUpdateTimestamp aid timestampRaw nowTs).2 := by
  unfold found at h
  unfold checkAndUpdateTimestamp
  cases hi : store.findOrAlloc aid with
  | none =>
    rw [hi, Option.map_none, eq_comm, Option.map_eq_none_iff] at h
    rw [h]
  | some is =>
    rw [hi, Option.map_some, eq_comm, Option.map_eq_some_iff] at h
    obtain ⟨⟨j, s⟩, hj, rfl⟩ := h
    rw [hj]
    simp only
    split
    · rfl
    split
    · rfl
    split
    · rfl
    · rfl

/-- A sweep takes the expired sessions out of the map. -/
theorem session_cleanup (h : AidsDistinct store) (nowTs : UInt64) (k : UInt32) :
    (store.cleanup nowTs).session k =
      (store.session k).filter fun s => !decide (store.Expired nowTs s) := by
  have hswept := entry_map (f := fun s => if s.used ∧ nowTs > s.lastSeen ∧
    nowTs - s.lastSeen > store.expireSeconds then .zero else s) h (fun s hu => ?_) k
  · rw [session, cleanup, hswept, session]
    cases hs : entry SecureSession.used SecureSession.aid store.sessions k with
    | none => rfl
    | some s =>
      obtain ⟨i, hi, rfl⟩ := entry_some hs
      obtain ⟨hu, -⟩ := lookup_some hi
      have hkept : (if (store.sessions.get i).used ∧ nowTs > (store.sessions.get i).lastSeen ∧
          nowTs - (store.sessions.get i).lastSeen > store.expireSeconds then SecureSession.zero
          else store.sessions.get i).used =
          !decide (store.Expired nowTs (store.sessions.get i)) := by
        by_cases hx : store.Expired nowTs (store.sessions.get i)
        · rw [if_pos ⟨hu, hx⟩, decide_eq_true hx]
          rfl
        · rw [if_neg fun hboth => hx hboth.2, hu, decide_eq_false hx]
          rfl
      rw [Option.filter_some, Option.filter_some, hkept]
  · split at hu
    · cases hu
    · rename_i hlive
      exact if_neg hlive

theorem session_cleanup_live (h : AidsDistinct store) {nowTs : UInt64}
    (hs : store.session aid = some s) (hlive : ¬ store.Expired nowTs s) :
    (store.cleanup nowTs).session aid = some s := by
  rw [session_cleanup h, hs, Option.filter_some, decide_eq_false hlive]
  rfl

theorem session_cleanup_expired (h : AidsDistinct store) {nowTs : UInt64}
    (hs : store.session aid = some s) (hx : store.Expired nowTs s) :
    (store.cleanup nowTs).session aid = none := by
  rw [session_cleanup h, hs, Option.filter_some, decide_eq_true hx]
  rfl

theorem session_cleanup_none (h : AidsDistinct store) (nowTs : UInt64)
    (hs : store.session aid = none) : (store.cleanup nowTs).session aid = none := by
  rw [session_cleanup h, hs, Option.filter_none]

/-- A slot that an expired session has taken is free after a sweep. -/
theorem found_cleanup {nowTs : UInt64}
    (hnone : (store.cleanup nowTs).session aid = none) {k : UInt32}
    (hs : store.session k = some s) (hx : store.Expired nowTs s) :
    (store.cleanup nowTs).found aid = some (.fresh aid) := by
  apply found_of_none hnone
  intro hfull
  rw [found, Option.map_eq_none_iff] at hfull
  obtain ⟨i, hi, rfl⟩ := entry_some hs
  obtain ⟨hu, hk⟩ := lookup_some hi
  unfold findOrAlloc at hfull
  split at hfull
  · cases hfull
  · rw [Option.map_eq_none_iff, vacant_none] at hfull
    have hslot := hfull i
    rw [cleanup_get, if_pos ⟨hu, hx⟩] at hslot
    cases hslot

/-- A free slot stays free. -/
theorem found_cleanup_room (h : AidsDistinct store) {nowTs : UInt64}
    (hs : store.session aid = none) (hroom : store.found aid ≠ none) :
    (store.cleanup nowTs).found aid = some (.fresh aid) := by
  apply found_of_none (session_cleanup_none h nowTs hs)
  intro hfull
  apply hroom
  rw [found, Option.map_eq_none_iff] at hfull ⊢
  have hfind : store.find aid = none := by
    rw [session, entry, Option.map_eq_none_iff] at hs
    exact hs
  unfold findOrAlloc at hfull ⊢
  split at hfull
  · cases hfull
  · rw [hfind]
    simp only [Option.map_eq_none_iff, vacant_none] at hfull ⊢
    intro i
    have hslot := hfull i
    rw [cleanup_get] at hslot
    split at hslot
    · cases hslot
    · exact hslot

/-- Without an expired session a sweep does nothing. -/
theorem cleanup_idle (h : AidsDistinct store) {nowTs : UInt64}
    (hlive : ∀ k s, store.session k = some s → ¬ store.Expired nowTs s) :
    store.cleanup nowTs = store := by
  have hsame : (store.cleanup nowTs).sessions = store.sessions := by
    apply Vector.ext
    intro i hi
    have hslot := cleanup_get store nowTs ⟨i, hi⟩
    rw [if_neg] at hslot
    · exact hslot
    · rintro ⟨hu, hx⟩
      apply hlive (store.sessions.get ⟨i, hi⟩).aid (store.sessions.get ⟨i, hi⟩) ?_ hx
      rw [session, entry, (lookup_eq_some h).mpr ⟨hu, rfl⟩, Option.map_some]
  calc store.cleanup nowTs = { store with sessions := (store.cleanup nowTs).sessions } := rfl
    _ = store := by rw [hsame]

theorem admits_fresh {timestampRaw : UInt64} (h : store.found aid = some (.fresh aid)) :
    store.Admits aid timestampRaw := by
  have hwindow : store.window aid = 0 := by
    rw [window, sessionOrNew_found h]
    rfl
  obtain ⟨⟨i, s⟩, hi, -⟩ := Option.map_eq_some_iff.mp h
  exact ⟨⟨i, s, hi⟩, Or.inl hwindow⟩

theorem shouldEncrypt_fresh (h : store.found aid = some (.fresh aid)) :
    store.shouldEncrypt aid = false := by
  rw [shouldEncrypt_eq, sessionOrNew_found h]
  rfl

end SecureStore

/-! ## Two stores -/

/-- Return value, reject code and response. -/
def HsOutcome.answer (o : HsOutcome n) : Bool × HsReject × Option Bytes :=
  (o.ret, o.result.reject, o.result.response)

theorem dispatchCtrl_answer (d : Delivery n) (store store' : SecureStore) (r : HsResult) :
    (dispatchCtrl (d.ctx store) d.packet r).answer =
      (dispatchCtrl (d.ctx store') d.packet r).answer := by
  simp only [dispatchCtrl]
  split
  · simp only [dispatchPing]
    split <;> rfl
  split
  · simp only [dispatchTimeRequest]
    split <;> rfl
  split
  · simp only [dispatchIdRequest, Delivery.ctx]
    split
    · rfl
    split
    · rfl
    split <;> rfl
  split
  · simp only [dispatchDictReady, Delivery.ctx]
    split <;> rfl
  split
  · simp only [dispatchChannelAck, Delivery.ctx]
    split <;> rfl
  split <;> rfl

/-- A packet that is no right data frame is answered without a look at the sessions. -/
theorem dispatch_noFrame_answer {d : Delivery n} (h : NoFrame d.packet)
    (store store' : SecureStore) : (d.dispatch store).answer = (d.dispatch store').answer := by
  by_cases hdata : isDataCmd (cmdNormalizeData (d.packet.getD 0 0)) = true
  · obtain ⟨r, -, hout⟩ := dispatch_badFrame hdata h
    rw [hout, hout]
    rfl
  · obtain ⟨packet, nowTs, alloc⟩ := d
    cases packet with
    | nil => rfl
    | cons cmd rest =>
      rw [List.getD_cons_zero] at hdata
      simp only [Delivery.dispatch, hsClassifyDispatch, if_neg hdata]
      exact dispatchCtrl_answer ⟨cmd :: rest, nowTs, alloc⟩ store store' _

section
variable {d : Delivery n} {pm : PacketMeta} {store store' : SecureStore}

/-- A data frame is answered after the session of its aid. -/
theorem dispatch_frame_congr (hmeta : dataMeta d.packet = some pm) (hcrc : pm.crc16Ok = true)
    (h : store.found pm.sourceAid = store'.found pm.sourceAid) :
    (d.dispatch store).answer = (d.dispatch store').answer := by
  have hverdict := verdict_congr h pm.timestampRaw d.nowTs
  have hkey : store.shouldEncrypt pm.sourceAid = store'.shouldEncrypt pm.sourceAid := by
    rw [shouldEncrypt_eq, shouldEncrypt_eq, sessionOrNew_congr h]
  have hconfirmed : store.isChannelConfirmed pm.sourceAid =
      store'.isChannelConfirmed pm.sourceAid := by
    rw [isChannelConfirmed_eq, isChannelConfirmed_eq, sessionOrNew_congr h]
  have hkey' : ∀ t : SecureStore,
      (t.checkAndUpdateTimestamp pm.sourceAid pm.timestampRaw d.nowTs).1.shouldEncrypt
        pm.sourceAid = t.shouldEncrypt pm.sourceAid :=
    fun t => shouldEncrypt_check t _ _ _
  have hconfirmed' : ∀ t : SecureStore,
      (t.checkAndUpdateTimestamp pm.sourceAid pm.timestampRaw d.nowTs).1.isChannelConfirmed
        pm.sourceAid = t.isChannelConfirmed pm.sourceAid :=
    fun t => isChannelConfirmed_check t _ _ _
  rw [dispatch_session hmeta hcrc, dispatch_session hmeta hcrc]
  simp only [dispatchSession, Delivery.ctx]
  rw [hverdict]
  cases (store'.checkAndUpdateTimestamp pm.sourceAid pm.timestampRaw d.nowTs).2 with
  | replay | outOfOrder => rfl
  | accept =>
    simp only [dispatchPlain, dispatchSecure, hkey', hconfirmed', hkey, hconfirmed]
    split
    · split <;> rfl
    split
    · rfl
    split <;> rfl

/-- A store with a free slot and no session of the aid answers a frame like one that lets
the frame through and has no key, and like no other. -/
theorem dispatch_frame_fresh (hmeta : dataMeta d.packet = some pm) (hcrc : pm.crc16Ok = true)
    (hfresh : store'.found pm.sourceAid = some (.fresh pm.sourceAid)) :
    (d.dispatch store).answer = (d.dispatch store').answer ↔
      store.Admits pm.sourceAid pm.timestampRaw ∧ store.shouldEncrypt pm.sourceAid = false := by
  have hopen' : store'.Admits pm.sourceAid pm.timestampRaw := admits_fresh hfresh
  have hnokey' := shouldEncrypt_fresh hfresh
  have hframe := dispatch_frame hmeta hcrc store
  have hframe' := dispatch_frame hmeta hcrc store'
  generalize d.dispatch store = o at hframe ⊢
  generalize d.dispatch store' = o' at hframe' ⊢
  cases hframe' with
  | late hshut => exact absurd hopen' hshut
  | confirmsChannel _ _ hkey' | passes _ hkey' =>
    rw [hnokey'] at hkey'
    cases hkey'
  | noKey _ hsecure =>
    cases hframe with
    | late hshut hreject =>
      refine ⟨fun h => ?_, fun h => absurd h.1 hshut⟩
      rcases hreject with rfl | rfl
      · cases congrArg (fun a => a.2.1) h
      · cases congrArg (fun a => a.2.1) h
    | noKey hopen _ hnokey => exact ⟨fun _ => ⟨hopen, hnokey⟩, fun _ => rfl⟩
    | confirmsKey _ hplain => exact absurd hplain hsecure
    | confirmsChannel _ _ hkey | passes _ hkey =>
      refine ⟨fun h => ?_, fun h => ?_⟩
      · cases congrArg Prod.fst h
      · rw [hkey] at h
        cases h.2
  | confirmsKey _ hplain =>
    cases hframe with
    | late hshut =>
      refine ⟨fun h => ?_, fun h => absurd h.1 hshut⟩
      cases congrArg Prod.fst h
    | noKey _ hsecure => exact absurd hplain hsecure
    | confirmsKey hopen _ hnokey => exact ⟨fun _ => ⟨hopen, hnokey⟩, fun _ => rfl⟩
    | confirmsChannel _ hsecure => exact absurd hplain hsecure
    | passes _ hkey =>
      refine ⟨fun h => ?_, fun h => ?_⟩
      · have hresponse := congrArg (fun a => a.2.2) h
        simp only [HsOutcome.answer, writeResponse_ready] at hresponse
        cases hresponse
      · rw [hkey] at h
        cases h.2

end

/-! ## The packet path -/

/-- The context after `osfx_secure_store_cleanup` of its store. -/
def GlueCtx.cleanup (ctx : GlueCtx n) (nowTs : UInt64) : GlueCtx n :=
  { ctx with secureStore := ctx.secureStore.cleanup nowTs }

/-- What a caller learns: the status, the reject code and the response. -/
def GlueOutcome.answer (o : GlueOutcome n) : GlueStatus × Option (HsReject × Option Bytes) :=
  (o.status, o.result.map fun r => (r.reject, r.response))

/-- An expired session stands in the way of a frame: it is of the aid of the frame, and
refuses it or lends it its key; or it is of another aid, and takes the last slot. -/
def ExpiredFor (store : SecureStore) (pm : PacketMeta) (nowTs : UInt64) : Prop :=
  (∃ s, store.session pm.sourceAid = some s ∧ store.Expired nowTs s ∧
    (¬ store.Admits pm.sourceAid pm.timestampRaw ∨ store.shouldEncrypt pm.sourceAid = true)) ∨
  (store.findOrAlloc pm.sourceAid = none ∧ ∃ k s, store.session k = some s ∧ store.Expired nowTs s)

/-- The packet is a data frame with a right CRC16 that an expired session stands in the way
of. -/
def ExpiredCounts (store : SecureStore) (packet : Bytes) (nowTs : UInt64) : Prop :=
  ∃ pm, dataMeta packet = some pm ∧ pm.crc16Ok = true ∧ ExpiredFor store pm nowTs

section
variable {store : SecureStore} {d : Delivery n} {pm : PacketMeta}

theorem expiredFor_session {s : SecureSession} (hs : store.session pm.sourceAid = some s)
    (nowTs : UInt64) : ExpiredFor store pm nowTs ↔ store.Expired nowTs s ∧
      (¬ store.Admits pm.sourceAid pm.timestampRaw ∨
        store.shouldEncrypt pm.sourceAid = true) := by
  obtain ⟨i, hi⟩ := findOrAlloc_isSome hs
  constructor
  · rintro (⟨s', hs', h⟩ | ⟨hnone, -⟩)
    · rw [hs] at hs'
      cases hs'
      exact h
    · rw [hi] at hnone
      cases hnone
  · intro h
    exact Or.inl ⟨s, hs, h⟩

theorem expiredFor_none (hs : store.session pm.sourceAid = none) (nowTs : UInt64) :
    ExpiredFor store pm nowTs ↔ store.findOrAlloc pm.sourceAid = none ∧
      ∃ k s, store.session k = some s ∧ store.Expired nowTs s := by
  refine or_iff_right ?_
  rintro ⟨s, hs', -⟩
  rw [hs] at hs'
  cases hs'

/-- The session of the aid itself is swept, or left alone. -/
theorem sweep_own (h : store.AidsDistinct) (hmeta : dataMeta d.packet = some pm)
    (hcrc : pm.crc16Ok = true) {s : SecureSession} (hs : store.session pm.sourceAid = some s) :
    (d.dispatch store).answer = (d.dispatch (store.cleanup d.nowTs)).answer ↔
      ¬ ExpiredFor store pm d.nowTs := by
  rw [expiredFor_session hs]
  by_cases hx : store.Expired d.nowTs s
  · have hfresh := found_cleanup (session_cleanup_expired h hs hx) hs hx
    rw [dispatch_frame_fresh hmeta hcrc hfresh, and_iff_right hx, not_or, not_not,
      Bool.not_eq_true]
  · have hsame : store.found pm.sourceAid = (store.cleanup d.nowTs).found pm.sourceAid := by
      rw [found_of_some hs, found_of_some (session_cleanup_live h hs hx)]
    exact ⟨fun _ hboth => hx hboth.1, fun _ => dispatch_frame_congr hmeta hcrc hsame⟩

/-- The aid has no session, and a sweep makes room for one, or changes nothing. -/
theorem sweep_others (h : store.AidsDistinct) (hmeta : dataMeta d.packet = some pm)
    (hcrc : pm.crc16Ok = true) (hs : store.session pm.sourceAid = none) :
    (d.dispatch store).answer = (d.dispatch (store.cleanup d.nowTs)).answer ↔
      ¬ ExpiredFor store pm d.nowTs := by
  rw [expiredFor_none hs]
  by_cases hroom : store.findOrAlloc pm.sourceAid = none
  · rw [and_iff_right hroom]
    by_cases hexpired : ∃ k s, store.session k = some s ∧ store.Expired d.nowTs s
    · obtain ⟨k, s, hk, hx⟩ := hexpired
      have hfresh := found_cleanup (session_cleanup_none h d.nowTs hs) hk hx
      rw [dispatch_frame_fresh hmeta hcrc hfresh]
      constructor
      · rintro ⟨⟨⟨i, s', hi⟩, -⟩, -⟩
        rw [hroom] at hi
        cases hi
      · intro hnone
        exact absurd ⟨k, s, hk, hx⟩ hnone
    · rw [cleanup_idle h fun k s hk hx => hexpired ⟨k, s, hk, hx⟩]
      exact ⟨fun _ => hexpired, fun _ => rfl⟩
  · have hfound : store.found pm.sourceAid ≠ none := by
      rw [found, Ne, Option.map_eq_none_iff]
      exact hroom
    have hsame : store.found pm.sourceAid = (store.cleanup d.nowTs).found pm.sourceAid := by
      rw [found_of_none hs hfound, found_cleanup_room h hs hfound]
    exact ⟨fun _ hboth => hroom hboth.1, fun _ => dispatch_frame_congr hmeta hcrc hsame⟩

end

/-- A sweep before a packet changes its answer exactly if an expired session counts. -/
theorem dispatch_cleanup_iff {store : SecureStore} (h : store.AidsDistinct) (d : Delivery n) :
    (d.dispatch store).answer = (d.dispatch (store.cleanup d.nowTs)).answer ↔
      ¬ ExpiredCounts store d.packet d.nowTs := by
  rcases noFrame_or_frame d.packet with hother | ⟨pm, hmeta, hcrc⟩
  · refine ⟨fun _ => ?_, fun _ => dispatch_noFrame_answer hother _ _⟩
    rintro ⟨pm, hmeta, hcrc, -⟩
    rw [hother pm hmeta] at hcrc
    cases hcrc
  · have hcounts : ExpiredCounts store d.packet d.nowTs ↔ ExpiredFor store pm d.nowTs := by
      constructor
      · rintro ⟨pm', hmeta', -, hc⟩
        rw [hmeta] at hmeta'
        cases hmeta'
        exact hc
      · intro hc
        exact ⟨pm, hmeta, hcrc, hc⟩
    rw [hcounts]
    cases hs : store.session pm.sourceAid with
    | some s => exact sweep_own h hmeta hcrc hs
    | none => exact sweep_others h hmeta hcrc hs

theorem glueProcessPacket_answer (ctx : GlueCtx n) {packet : Bytes} (hne : packet ≠ [])
    (store : SecureStore) (nowTs : UInt64) :
    (glueProcessPacket ctx packet nowTs).answer =
        (glueProcessPacket { ctx with secureStore := store } packet nowTs).answer ↔
      ((ctx.delivery packet nowTs).dispatch ctx.secureStore).answer =
        ((ctx.delivery packet nowTs).dispatch store).answer := by
  have hanswer : ∀ ctx : GlueCtx n, (glueProcessPacket ctx packet nowTs).answer =
      ((if ((ctx.delivery packet nowTs).dispatch ctx.secureStore).ret then .ok else .errRuntime),
        some (((ctx.delivery packet nowTs).dispatch ctx.secureStore).result.reject,
          ((ctx.delivery packet nowTs).dispatch ctx.secureStore).result.response)) := by
    intro ctx
    obtain ⟨hstatus, hresult⟩ := glueProcessPacket_cons ctx hne nowTs
    rw [GlueOutcome.answer, hstatus, hresult, Option.map_some]
  have hdelivery : ({ ctx with secureStore := store } : GlueCtx n).delivery packet nowTs =
      ctx.delivery packet nowTs := rfl
  rw [hanswer, hanswer, hdelivery]
  simp only [HsOutcome.answer, Prod.mk.injEq, Option.some.injEq, and_congr_left_iff]
  intro _
  cases ((ctx.delivery packet nowTs).dispatch ctx.secureStore).ret <;>
    cases ((ctx.delivery packet nowTs).dispatch store).ret <;> decide

/-- On every context that packets can lead to, the next packet is answered as after a sweep
of the sessions exactly if no expired session counts. -/
theorem expiry_enforced_iff (cfg : Option GlueConfig) (ps : List GluePacket) (packet : Bytes)
    (nowTs : UInt64) :
    (glueProcessPacket (glueRun (glueInit n cfg) ps) packet nowTs).answer =
        (glueProcessPacket ((glueRun (glueInit n cfg) ps).cleanup nowTs) packet nowTs).answer ↔
      ¬ ExpiredCounts (glueRun (glueInit n cfg) ps).secureStore packet nowTs := by
  have hdistinct := aidsDistinct_glueRun (n := n) cfg ps
  generalize glueRun (glueInit n cfg) ps = ctx at hdistinct ⊢
  by_cases hne : packet = []
  · subst hne
    refine ⟨fun _ => ?_, fun _ => rfl⟩
    rintro ⟨pm, hmeta, -⟩
    cases hmeta
  · rw [GlueCtx.cleanup, glueProcessPacket_answer ctx hne]
    exact dispatch_cleanup_iff hdistinct (ctx.delivery packet nowTs)

/-- A context of the default configuration that has heard of aid 1 at time 100. -/
def heardOnce : GlueCtx 16 := glueRun (glueInit 16 none) [((frameAt 8).packet, 100)]

/-- Its session expires after a day. A second later its key still lets a secure frame
through and confirms the channel; after a sweep there is no session. -/
theorem expired_key_accepted :
    (glueProcessPacket heardOnce (secureFrameAt 9).packet 86501).answer =
        (.ok, some (.none, some [Cmd.secureChannelAck, 0, 0, 0, 1])) ∧
      (glueProcessPacket (heardOnce.cleanup 86501) (secureFrameAt 9).packet 86501).answer =
        (.errRuntime, some (.noSession, none)) := by
  constructor
  · decide +kernel
  · decide +kernel

end Osfx
