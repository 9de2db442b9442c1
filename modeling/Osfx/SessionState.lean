import Osfx.FrameOutcome

/-!
# The state of the sessions

A store that is used by calls and packets in any order. Aids stay distinct, and a
session is ready exactly if it has a key. A channel should be marked only of an aid that
has a key, but `osfx_secure_mark_channel` marks any, so that a SECURE_CHANNEL_ACK that
nobody waits for makes a session secure without a key. `session_state_iff` says that the
invariant lasts exactly as long as that does not happen.
-/

namespace Osfx

open EventSystem SlotTable SecureStore

variable {n : Nat}

/-! ## Sessions of the table -/

namespace SecureStore

/-- All sessions of the table satisfy `P`. -/
def AllUsed (P : SecureSession → Prop) (store : SecureStore) : Prop :=
  ∀ i : Fin sessionMax, (store.sessions.get i).used = true → P (store.sessions.get i)

/-- No two sessions are of the same aid. -/
def AidsDistinct (store : SecureStore) : Prop :=
  Distinct SecureSession.used SecureSession.aid store.sessions

variable {P : SecureSession → Prop} {store : SecureStore} {aid : UInt32} {i : Fin sessionMax}
  {s s' : SecureSession}

theorem allUsed_put (h : AllUsed P store) (hs : P s) : AllUsed P (store.put i s) :=
  forall_set (P := fun _ (s : SecureSession) => s.used = true → P s) (fun _ => hs) fun j _ => h j

/-- The session of an aid is one of the table, or a new one. -/
theorem allUsed_found (h : AllUsed P store) (hfresh : P (.fresh aid))
    (hi : store.findOrAlloc aid = some (i, s)) : P s := by
  unfold findOrAlloc at hi
  cases hf : store.find aid with
  | some j =>
    simp only [hf, Option.some.injEq, Prod.mk.injEq] at hi
    obtain ⟨rfl, rfl⟩ := hi
    exact h j (lookup_some hf).1
  | none =>
    simp only [hf, Option.map_eq_some_iff, Prod.mk.injEq] at hi
    obtain ⟨j, -, -, rfl⟩ := hi
    exact hfresh

theorem allUsed_session (h : AllUsed P store) (hs : store.session aid = some s) : P s := by
  obtain ⟨i, hi, rfl⟩ := entry_some hs
  exact h i (lookup_some hi).1

theorem aidsDistinct_put (h : AidsDistinct store) (hi : store.findOrAlloc aid = some (i, s))
    (ha : s'.aid = aid) : AidsDistinct (store.put i s') := by
  obtain ⟨hslot, -⟩ := findOrAlloc_some hi
  rw [← ha] at hslot
  exact distinct_set_slot h hslot

theorem allUsed_modify (h : AllUsed P store) {f : SecureSession → SecureSession}
    (hf : ∀ i s, store.findOrAlloc aid = some (i, s) → P (f s)) :
    AllUsed P (store.modify aid f).1 := by
  unfold modify
  cases hi : store.findOrAlloc aid with
  | none => exact h
  | some is => exact allUsed_put h (hf _ _ hi)

theorem aidsDistinct_modify (h : AidsDistinct store) {f : SecureSession → SecureSession}
    (hf : Keeps f) : AidsDistinct (store.modify aid f).1 := by
  unfold modify
  cases hi : store.findOrAlloc aid with
  | none => exact h
  | some is =>
    obtain ⟨-, -, -, ha⟩ := findOrAlloc_some hi
    exact aidsDistinct_put h hi ((hf _).2.trans ha)

/-- A check of a timestamp changes when a session was last seen and its window. -/
theorem checked_put (store : SecureStore) (aid : UInt32) (timestampRaw nowTs : UInt64) :
    store.checked aid timestampRaw nowTs = store ∨
    ∃ i s window, store.findOrAlloc aid = some (i, s) ∧
      store.checked aid timestampRaw nowTs =
        store.put i { s with lastSeen := nowTs, lastDataTimestamp := window } := by
  unfold checked
  cases hi : store.findOrAlloc aid with
  | none =>
    rw [checkAndUpdateTimestamp_none hi]
    exact Or.inl rfl
  | some is =>
    obtain ⟨i, s⟩ := is
    right
    rcases checkAndUpdateTimestamp_some hi timestampRaw nowTs with
      ⟨-, hcheck⟩ | ⟨-, -, verdict, -, hcheck⟩
    · rw [hcheck]
      exact ⟨i, s, timestampRaw, rfl, rfl⟩
    · rw [hcheck]
      exact ⟨i, s, s.lastDataTimestamp, rfl, rfl⟩

theorem allUsed_checked (h : AllUsed P store) {timestampRaw nowTs : UInt64}
    (hf : ∀ i s window, store.findOrAlloc aid = some (i, s) →
      P { s with lastSeen := nowTs, lastDataTimestamp := window }) :
    AllUsed P (store.checked aid timestampRaw nowTs) := by
  rcases checked_put store aid timestampRaw nowTs with hsame | ⟨i, s, window, hi, hput⟩
  · rw [hsame]
    exact h
  · rw [hput]
    exact allUsed_put h (hf i s window hi)

theorem aidsDistinct_checked (h : AidsDistinct store) (aid : UInt32)
    (timestampRaw nowTs : UInt64) : AidsDistinct (store.checked aid timestampRaw nowTs) := by
  rcases checked_put store aid timestampRaw nowTs with hsame | ⟨i, s, window, hi, hput⟩
  · rw [hsame]
    exact h
  · obtain ⟨-, -, -, ha⟩ := findOrAlloc_some hi
    rw [hput]
    exact aidsDistinct_put h hi ha

theorem cleanup_get (store : SecureStore) (nowTs : UInt64) (i : Fin sessionMax) :
    (store.cleanup nowTs).sessions.get i =
      if (store.sessions.get i).used ∧ nowTs > (store.sessions.get i).lastSeen ∧
          nowTs - (store.sessions.get i).lastSeen > store.expireSeconds then .zero
      else store.sessions.get i :=
  get_map _ _ _

theorem allUsed_cleanup (h : AllUsed P store) (nowTs : UInt64) :
    AllUsed P (store.cleanup nowTs) := by
  intro i hi
  rw [cleanup_get] at hi ⊢
  split at hi
  · cases hi
  · rename_i hlive
    rw [if_neg hlive]
    exact h i hi

theorem aidsDistinct_cleanup (h : AidsDistinct store) (nowTs : UInt64) :
    AidsDistinct (store.cleanup nowTs) := by
  refine distinct_map h fun s hu => ?_
  split at hu
  · cases hu
  · rename_i hlive
    exact if_neg hlive

/-- What a check, a confirmation of a key and the marking of a channel all keep, every
packet keeps. -/
theorem dispatch_invariant {I : SecureStore → Prop}
    (hchecked : ∀ store aid timestampRaw nowTs, I store → I (checked store aid timestampRaw nowTs))
    (hconfirm : ∀ store aid timestampRaw nowTs, I store →
      I (store.confirmDict aid timestampRaw nowTs).1)
    (hmark : ∀ store aid nowTs, I store → I (store.markChannel aid nowTs).1)
    (h : I store) {d : Delivery n} {store' : SecureStore}
    (hstore : (d.dispatch store).ctx.secureStore = some store') : I store' := by
  rcases noFrame_or_frame d.packet with hother | ⟨pm, hmeta, hcrc⟩
  · have hout := dispatch_noFrame hother store
    generalize d.dispatch store = o at hout hstore
    cases hout with
    | keeps _ _ hs =>
      rw [hs] at hstore
      cases hstore
      exact h
    | dictReady _ _ hs =>
      rw [hs] at hstore
      cases hstore
      exact hconfirm _ _ _ _ h
    | channelAck _ _ hs =>
      rw [hs] at hstore
      cases hstore
      exact hmark _ _ _ h
  · have hframe := dispatch_frame hmeta hcrc store
    have hnext := hchecked store pm.sourceAid pm.timestampRaw d.nowTs h
    generalize d.dispatch store = o at hframe hstore
    cases hframe with
    | late | noKey | passes =>
      cases hstore
      exact hnext
    | confirmsKey =>
      cases hstore
      exact hconfirm _ _ _ _ hnext
    | confirmsChannel =>
      cases hstore
      exact hmark _ _ _ hnext

theorem aidsDistinct_dispatch (h : AidsDistinct store) {d : Delivery n} {store' : SecureStore}
    (hstore : (d.dispatch store).ctx.secureStore = some store') : AidsDistinct store' :=
  dispatch_invariant (I := AidsDistinct)
    (fun _ aid timestampRaw nowTs h => aidsDistinct_checked h aid timestampRaw nowTs)
    (fun _ aid timestampRaw nowTs h =>
      aidsDistinct_modify h (keeps_dictConfirmed aid timestampRaw nowTs))
    (fun _ _ nowTs h => aidsDistinct_modify h (keeps_channelMarked nowTs)) h hstore

end SecureStore

/-! ## Runs -/

inductive SessionOp (n : Nat) where
  | notePlaintextSent (aid : UInt32) (timestampRaw nowTs : UInt64)
  | confirmDict (aid : UInt32) (timestampRaw nowTs : UInt64)
  | markChannel (aid : UInt32) (nowTs : UInt64)
  | checkAndUpdateTimestamp (aid : UInt32) (timestampRaw nowTs : UInt64)
  | cleanup (nowTs : UInt64)
  | dispatch (d : Delivery n)

def sessionStep (store : SecureStore) : SessionOp n → Option SecureStore
  | .notePlaintextSent aid timestampRaw nowTs =>
    some (store.notePlaintextSent aid timestampRaw nowTs).1
  | .confirmDict aid timestampRaw nowTs => some (store.confirmDict aid timestampRaw nowTs).1
  | .markChannel aid nowTs => some (store.markChannel aid nowTs).1
  | .checkAndUpdateTimestamp aid timestampRaw nowTs =>
    some (store.checkAndUpdateTimestamp aid timestampRaw nowTs).1
  | .cleanup nowTs => some (store.cleanup nowTs)
  | .dispatch d => (d.dispatch store).ctx.secureStore

theorem sessionStep_isSome (store : SecureStore) (op : SessionOp n) :
    (sessionStep store op).isSome = true := by
  cases op with
  | dispatch d =>
    obtain ⟨store', hstore, -⟩ := dispatch_cases d store
    rw [sessionStep, hstore]
    rfl
  | notePlaintextSent | confirmDict | markChannel | checkAndUpdateTimestamp | cleanup => rfl

theorem sessionStep_aidsDistinct {store store' : SecureStore} (hd : AidsDistinct store)
    {op : SessionOp n} (h : sessionStep store op = some store') : AidsDistinct store' := by
  cases op with
  | notePlaintextSent aid timestampRaw nowTs =>
    cases h
    exact aidsDistinct_modify hd (keeps_plaintextSent aid timestampRaw nowTs)
  | confirmDict aid timestampRaw nowTs =>
    cases h
    exact aidsDistinct_modify hd (keeps_dictConfirmed aid timestampRaw nowTs)
  | markChannel aid nowTs =>
    cases h
    exact aidsDistinct_modify hd (keeps_channelMarked nowTs)
  | checkAndUpdateTimestamp aid timestampRaw nowTs =>
    cases h
    exact aidsDistinct_checked hd aid timestampRaw nowTs
  | cleanup nowTs =>
    cases h
    exact aidsDistinct_cleanup hd nowTs
  | dispatch d => exact aidsDistinct_dispatch hd h

/-! ## Keys and channels -/

/-- A session is ready exactly if it has a key, and only then it is secure. -/
structure SessionOk (s : SecureSession) : Prop where
  ready : s.dictReady = true ↔ s.keySet = true
  secure : s.decryptConfirmed = true ∨ s.state = .secure → s.keySet = true ∧ s.dictReady = true

structure StoreOk (store : SecureStore) : Prop where
  distinct : AidsDistinct store
  sessions : AllUsed SessionOk store

theorem sessionOk_fresh (aid : UInt32) : SessionOk (.fresh aid) := by
  refine ⟨Iff.rfl, fun h => ?_⟩
  rcases h with h | h
  · cases h
  · cases h

theorem sessionOk_plaintextSent {s : SecureSession} (h : SessionOk s) (aid : UInt32)
    (timestampRaw nowTs : UInt64) : SessionOk (s.plaintextSent aid timestampRaw nowTs) := by
  refine ⟨h.ready, fun hsecure => ?_⟩
  rcases hsecure with hsecure | hsecure
  · exact h.secure (Or.inl hsecure)
  · cases hsecure

theorem sessionOk_dictConfirmed (s : SecureSession) (aid : UInt32)
    (timestampRaw nowTs : UInt64) : SessionOk (s.dictConfirmed aid timestampRaw nowTs) :=
  ⟨⟨fun _ => rfl, fun _ => rfl⟩, fun _ => ⟨rfl, rfl⟩⟩

theorem sessionOk_checked {s : SecureSession} (h : SessionOk s) (nowTs window : UInt64) :
    SessionOk { s with lastSeen := nowTs, lastDataTimestamp := window } :=
  ⟨h.ready, h.secure⟩

/-- The channel of a session can be marked exactly if the session has a key. -/
theorem sessionOk_channelMarked {s : SecureSession} (h : SessionOk s) (nowTs : UInt64) :
    SessionOk (s.channelMarked nowTs) ↔ s.keySet = true :=
  ⟨fun hmarked => (hmarked.secure (Or.inl rfl)).1,
    fun hkey => ⟨h.ready, fun _ => ⟨hkey, h.ready.mpr hkey⟩⟩⟩

theorem storeOk_init (expire : UInt64) : StoreOk (secureStoreInit expire) where
  distinct := distinct_replicate rfl
  sessions := by
    intro i hi
    simp only [secureStoreInit, get_replicate] at hi
    cases hi

/-- The aid has a key, or it has neither a session nor room for one. -/
def Markable (store : SecureStore) (aid : UInt32) : Prop :=
  ∀ i s, store.findOrAlloc aid = some (i, s) → s.keySet = true

theorem storeOk_markChannel {store : SecureStore} (h : StoreOk store) (aid : UInt32)
    (nowTs : UInt64) : StoreOk (store.markChannel aid nowTs).1 ↔ Markable store aid := by
  constructor
  · intro hmarked i s hi
    obtain ⟨-, -, hu, -⟩ := findOrAlloc_some hi
    have hs := allUsed_found h.sessions (sessionOk_fresh aid) hi
    apply (sessionOk_channelMarked hs nowTs).mp
    have hslot := hmarked.sessions i
    simp only [markChannel, SecureStore.modify, hi, put, get_set_self] at hslot
    exact hslot hu
  · intro hmark
    refine ⟨aidsDistinct_modify h.distinct (keeps_channelMarked nowTs), ?_⟩
    apply allUsed_modify h.sessions
    intro i s hi
    have hs := allUsed_found h.sessions (sessionOk_fresh aid) hi
    exact (sessionOk_channelMarked hs nowTs).mpr (hmark i s hi)

theorem storeOk_confirmDict {store : SecureStore} (h : StoreOk store) (aid : UInt32)
    (timestampRaw nowTs : UInt64) : StoreOk (store.confirmDict aid timestampRaw nowTs).1 where
  distinct := aidsDistinct_modify h.distinct (keeps_dictConfirmed aid timestampRaw nowTs)
  sessions := allUsed_modify h.sessions fun _ s _ =>
    sessionOk_dictConfirmed s aid timestampRaw nowTs

theorem storeOk_checked {store : SecureStore} (h : StoreOk store) (aid : UInt32)
    (timestampRaw nowTs : UInt64) : StoreOk (store.checked aid timestampRaw nowTs) where
  distinct := aidsDistinct_checked h.distinct aid timestampRaw nowTs
  sessions := allUsed_checked h.sessions fun _ _ window hi =>
    sessionOk_checked (allUsed_found h.sessions (sessionOk_fresh aid) hi) nowTs window

/-- A call that marks a channel, or a SECURE_CHANNEL_ACK, is of a markable aid. -/
def MarksKeyed (store : SecureStore) : SessionOp n → Prop
  | .markChannel aid _ => Markable store aid
  | .dispatch d => IsChannelAck d.packet → Markable store (packetAid d.packet)
  | _ => True

/-- A secure data frame marks the channel of an aid with a key only. -/
theorem storeOk_frame {store store' : SecureStore} (h : StoreOk store) {d : Delivery n}
    {pm : PacketMeta} (hmeta : dataMeta d.packet = some pm) (hcrc : pm.crc16Ok = true)
    (hstore : (d.dispatch store).ctx.secureStore = some store') : StoreOk store' := by
  have hframe := dispatch_frame hmeta hcrc store
  have hnext := storeOk_checked h pm.sourceAid pm.timestampRaw d.nowTs
  generalize d.dispatch store = o at hframe hstore
  cases hframe with
  | late | noKey | passes =>
    cases hstore
    exact hnext
  | confirmsKey =>
    cases hstore
    exact storeOk_confirmDict hnext _ _ _
  | confirmsChannel _ _ hkey =>
    cases hstore
    rw [storeOk_markChannel hnext]
    intro i s hi
    obtain ⟨-, hs, -⟩ := findOrAlloc_some hi
    have hencrypt : (store.checked pm.sourceAid pm.timestampRaw d.nowTs).shouldEncrypt
        pm.sourceAid = true := (shouldEncrypt_check store _ _ _).trans hkey
    rw [shouldEncrypt_eq, ← hs, Bool.and_eq_true] at hencrypt
    exact hencrypt.2

theorem storeOk_dispatch {store store' : SecureStore} (h : StoreOk store) {d : Delivery n}
    (hstore : (d.dispatch store).ctx.secureStore = some store') :
    StoreOk store' ↔ (IsChannelAck d.packet → Markable store (packetAid d.packet)) := by
  rcases noFrame_or_frame d.packet with hother | ⟨pm, hmeta, hcrc⟩
  · have hout := dispatch_noFrame hother store
    generalize d.dispatch store = o at hout hstore
    cases hout with
    | keeps _ hack hs =>
      rw [hs] at hstore
      cases hstore
      exact ⟨fun _ his => absurd his hack, fun _ => h⟩
    | dictReady hready _ hs =>
      rw [hs] at hstore
      cases hstore
      refine ⟨fun _ his => ?_, fun _ => storeOk_confirmDict h _ _ _⟩
      exact absurd (hready.1.symm.trans his.1) (by decide)
    | channelAck hack _ hs =>
      rw [hs] at hstore
      cases hstore
      rw [storeOk_markChannel h]
      exact ⟨fun hmark _ => hmark, fun hmark => hmark hack⟩
  · have hnot : ¬ IsChannelAck d.packet := by
      rintro ⟨hhead, -⟩
      rw [dataMeta, hhead] at hmeta
      cases hmeta
    exact ⟨fun _ his => absurd his hnot, fun _ => storeOk_frame h hmeta hcrc hstore⟩

theorem sessionStep_storeOk {store store' : SecureStore} (hok : StoreOk store) {op : SessionOp n}
    (h : sessionStep store op = some store') : StoreOk store' ↔ MarksKeyed store op := by
  cases op with
  | notePlaintextSent aid timestampRaw nowTs =>
    cases h
    refine ⟨fun _ => trivial, fun _ => ?_⟩
    refine ⟨aidsDistinct_modify hok.distinct (keeps_plaintextSent aid timestampRaw nowTs), ?_⟩
    apply allUsed_modify hok.sessions
    intro i s hi
    have hs := allUsed_found hok.sessions (sessionOk_fresh aid) hi
    exact sessionOk_plaintextSent hs aid timestampRaw nowTs
  | confirmDict aid timestampRaw nowTs =>
    cases h
    exact ⟨fun _ => trivial, fun _ => storeOk_confirmDict hok aid timestampRaw nowTs⟩
  | markChannel aid nowTs =>
    cases h
    exact storeOk_markChannel hok aid nowTs
  | checkAndUpdateTimestamp aid timestampRaw nowTs =>
    cases h
    exact ⟨fun _ => trivial, fun _ => storeOk_checked hok aid timestampRaw nowTs⟩
  | cleanup nowTs =>
    cases h
    refine ⟨fun _ => trivial, fun _ => ?_⟩
    exact ⟨aidsDistinct_cleanup hok.distinct nowTs, allUsed_cleanup hok.sessions nowTs⟩
  | dispatch d => exact storeOk_dispatch hok h

/-- In a run of calls and packets the invariant holds throughout exactly if a channel is
only ever marked of an aid with a key. -/
theorem session_state_iff (expire : UInt64) (ops : List (SessionOp n)) :
    Always sessionStep StoreOk (secureStoreInit expire) ops ↔
      Each sessionStep MarksKeyed (secureStoreInit expire) ops := by
  obtain ⟨store, hrun⟩ := Option.isSome_iff_exists.mp
    (run_isSome sessionStep sessionStep_isSome (secureStoreInit expire) ops)
  exact always_iff_each sessionStep (fun _ _ _ hok hmark h => (sessionStep_storeOk hok h).mpr hmark)
    (fun _ hok => hok) (fun _ _ _ hok hmark h hok' => hmark ((sessionStep_storeOk hok h).mp hok'))
    (storeOk_init expire) hrun

/-- An acknowledgement nobody waits for, of aid 1. -/
def strayAck : Delivery 16 := ⟨Cmd.secureChannelAck :: Numeral.beBytes 4 1, 100, none⟩

/-- It makes a session of aid 1 that is secure and has no key. -/
theorem stray_ack_secure_without_key :
    ∃ store s, run sessionStep (secureStoreInit 60) [.dispatch strayAck] = some store ∧
      store.session 1 = some s ∧ s.used = true ∧ s.decryptConfirmed = true ∧ s.state = .secure ∧
      s.keySet = false ∧ ¬ StoreOk store := by
  have hsome : (run sessionStep (secureStoreInit 60) [.dispatch strayAck]).isSome = true := by
    decide +kernel
  obtain ⟨store, hrun⟩ := Option.isSome_iff_exists.mp hsome
  have hsession : (run sessionStep (secureStoreInit 60) [.dispatch strayAck]).bind
      (fun store => store.session 1) = some ((SecureSession.fresh 1).channelMarked 100) := by
    decide +kernel
  rw [hrun, Option.bind_some] at hsession
  refine ⟨store, _, hrun, hsession, rfl, rfl, rfl, rfl, fun hok => ?_⟩
  exact absurd ((allUsed_session hok.sessions hsession).secure (Or.inl rfl)).1 (by decide)

end Osfx
