import Osfx.Lib.SlotTable

/-!
# Secure sessions

`osfx_secure_session.c`: a table of sessions found by aid, each with a pending
and a confirmed key and the timestamp window of its data frames. An operation on
an aid that has no session takes a free slot for it; read as a map from aids,
with `session`, the store then changes at that aid only.
-/

namespace Osfx

open SlotTable

/-- `OSFX_SESSION_MAX`. -/
def sessionMax : Nat := 64

/-- `OSFX_KEY_LEN` bytes. -/
abbrev Key := Vector UInt8 32

/-- `OSFX_SEC_STATE_INIT` ... `OSFX_SEC_STATE_SECURE`, and what else a file can put in the
`int` they are kept in. -/
inductive SecState where
  | init
  | plaintextSent
  | dictReady
  | secure
  | other (value : Int32) (unnamed : value ∉ [0, 1, 2, 3])
  deriving DecidableEq

namespace SecState

def toInt32 : SecState → Int32
  | .init => 0
  | .plaintextSent => 1
  | .dictReady => 2
  | .secure => 3
  | .other value _ => value

def ofInt32 (value : Int32) : SecState :=
  if unnamed : value ∉ [0, 1, 2, 3] then .other value unnamed
  else if value = 3 then .secure
  else if value = 2 then .dictReady
  else if value = 1 then .plaintextSent
  else .init

theorem ofInt32_toInt32 (state : SecState) : ofInt32 state.toInt32 = state := by
  cases state with
  | init | plaintextSent | dictReady | secure => rfl
  | other value unnamed => exact dif_pos unnamed

end SecState

inductive TsVerdict where
  | accept
  | replay
  | outOfOrder
  deriving DecidableEq, Repr

structure SecureSession where
  aid : UInt32
  lastSeen : UInt64
  lastDataTimestamp : UInt64
  firstPlaintextTs : UInt64
  pendingTimestamp : UInt64
  key : Key
  pendingKey : Key
  keySet : Bool
  pendingKeySet : Bool
  dictReady : Bool
  decryptConfirmed : Bool
  state : SecState
  used : Bool
  deriving DecidableEq

def SecureSession.zero : SecureSession :=
  ⟨0, 0, 0, 0, 0, Vector.replicate _ 0, Vector.replicate _ 0, false, false, false, false, .init,
    false⟩

/-- A new session. -/
def SecureSession.fresh (aid : UInt32) : SecureSession :=
  { SecureSession.zero with used := true, aid := aid, state := .init }

structure SecureStore where
  sessions : Vector SecureSession sessionMax
  expireSeconds : UInt64
  deriving DecidableEq

def secureStoreInit (expireSeconds : UInt64) : SecureStore where
  sessions := Vector.replicate _ .zero
  expireSeconds := if expireSeconds > 0 then expireSeconds else 86400

namespace SecureStore

/-- The first used session of an aid: the search of `find_const`. -/
def find (store : SecureStore) (aid : UInt32) : Option (Fin sessionMax) :=
  lookup SecureSession.used SecureSession.aid store.sessions aid

/-- `find_or_alloc`: the slot of an aid and the session there, a new one in the
first free slot if it has none. -/
def findOrAlloc (store : SecureStore) (aid : UInt32) : Option (Fin sessionMax × SecureSession) :=
  match store.find aid with
  | some i => some (i, store.sessions.get i)
  | none => (vacant SecureSession.used store.sessions).map fun i => (i, .fresh aid)

/-- Write a session back. -/
def put (store : SecureStore) (i : Fin sessionMax) (s : SecureSession) : SecureStore :=
  { store with sessions := store.sessions.set i s i.isLt }

end SecureStore

/-! ## derive_key -/

def keySeed (aid : UInt32) (ts : UInt64) : UInt32 :=
  aid ^^^ (ts &&& 0xFFFFFFFF).toUInt32 ^^^ ((ts >>> 32) &&& 0xFFFFFFFF).toUInt32

/-- The generator after `i` bytes. -/
def keyWord (seed : UInt32) : Nat → UInt32
  | 0 => seed
  | i + 1 => keyWord seed i * 1664525 + 1013904223 + UInt32.ofNat i

def deriveKey (aid : UInt32) (ts : UInt64) : Key :=
  Vector.ofFn fun i => ((keyWord (keySeed aid ts) (i.val + 1) >>> 24) &&& 0xFF).toUInt8

/-! ## The operations -/

namespace SecureSession

/-- The session after a plaintext frame has been sent. -/
def plaintextSent (s : SecureSession) (aid : UInt32) (timestampRaw nowTs : UInt64) :
    SecureSession :=
  { s with
    lastSeen := nowTs
    pendingTimestamp := timestampRaw
    pendingKey := deriveKey aid timestampRaw
    pendingKeySet := true
    state := .plaintextSent }

/-- The pending key, derived from the answer's timestamp if there is none. -/
def withPendingKey (s : SecureSession) (aid : UInt32) (timestampRaw : UInt64) : SecureSession :=
  if s.pendingKeySet then s
  else { s with
    pendingTimestamp := timestampRaw
    pendingKey := deriveKey aid timestampRaw
    pendingKeySet := true }

/-- The session once the pending key is confirmed. -/
def dictConfirmed (s : SecureSession) (aid : UInt32) (timestampRaw nowTs : UInt64) :
    SecureSession :=
  { s.withPendingKey aid timestampRaw with
    lastSeen := nowTs
    key := (s.withPendingKey aid timestampRaw).pendingKey
    keySet := true
    dictReady := true
    firstPlaintextTs := (s.withPendingKey aid timestampRaw).pendingTimestamp
    state := .dictReady }

/-- The session once a frame could be decrypted. -/
def channelMarked (s : SecureSession) (nowTs : UInt64) : SecureSession :=
  { s with lastSeen := nowTs, decryptConfirmed := true, state := .secure }

end SecureSession

namespace SecureStore

def cleanup (store : SecureStore) (nowTs : UInt64) : SecureStore :=
  { store with
    sessions := store.sessions.map fun s =>
      if s.used ∧ nowTs > s.lastSeen ∧ nowTs - s.lastSeen > store.expireSeconds then .zero else s }

/-- Change the session of an aid. The call returns 0 where there is none and no room
for a new one. -/
def modify (store : SecureStore) (aid : UInt32) (f : SecureSession → SecureSession) :
    SecureStore × Bool :=
  match store.findOrAlloc aid with
  | none => (store, false)
  | some (i, s) => (store.put i (f s), true)

def notePlaintextSent (store : SecureStore) (aid : UInt32) (timestampRaw nowTs : UInt64) :
    SecureStore × Bool :=
  store.modify aid fun s => s.plaintextSent aid timestampRaw nowTs

def confirmDict (store : SecureStore) (aid : UInt32) (timestampRaw nowTs : UInt64) :
    SecureStore × Bool :=
  store.modify aid fun s => s.dictConfirmed aid timestampRaw nowTs

def markChannel (store : SecureStore) (aid : UInt32) (nowTs : UInt64) : SecureStore × Bool :=
  store.modify aid fun s => s.channelMarked nowTs

/-- The session of an aid. -/
def session (store : SecureStore) (aid : UInt32) : Option SecureSession :=
  entry SecureSession.used SecureSession.aid store.sessions aid

def shouldEncrypt (store : SecureStore) (aid : UInt32) : Bool :=
  match store.session aid with
  | none => false
  | some s => s.dictReady && s.keySet

def getKey (store : SecureStore) (aid : UInt32) : Option Key :=
  match store.session aid with
  | none => none
  | some s => if s.keySet then some s.key else none

def isChannelConfirmed (store : SecureStore) (aid : UInt32) : Bool :=
  match store.session aid with
  | none => false
  | some s => s.decryptConfirmed

def checkAndUpdateTimestamp (store : SecureStore) (aid : UInt32) (timestampRaw nowTs : UInt64) :
    SecureStore × TsVerdict :=
  match store.findOrAlloc aid with
  | none => (store, .outOfOrder)
  | some (i, s) =>
    let s := { s with lastSeen := nowTs }
    if s.lastDataTimestamp = 0 then
      (store.put i { s with lastDataTimestamp := timestampRaw }, .accept)
    else if timestampRaw = s.lastDataTimestamp then (store.put i s, .replay)
    else if timestampRaw < s.lastDataTimestamp then (store.put i s, .outOfOrder)
    else (store.put i { s with lastDataTimestamp := timestampRaw }, .accept)

end SecureStore

/-! ## The store as a map -/

namespace SecureStore

variable {store : SecureStore} {aid : UInt32}

/-- The session an operation works on: the one of the aid, or a new one. -/
def sessionOrNew (store : SecureStore) (aid : UInt32) : SecureSession :=
  (store.session aid).getD (.fresh aid)

theorem findOrAlloc_some {i : Fin sessionMax} {s : SecureSession}
    (h : store.findOrAlloc aid = some (i, s)) :
    SlotOf SecureSession.used SecureSession.aid store.sessions aid i ∧
    s = store.sessionOrNew aid ∧ s.used = true ∧ s.aid = aid := by
  unfold findOrAlloc at h
  cases hf : store.find aid with
  | some j =>
    simp only [hf, Option.some.injEq, Prod.mk.injEq] at h
    obtain ⟨rfl, rfl⟩ := h
    obtain ⟨hu, hk⟩ := lookup_some hf
    have hsession : store.session aid = some (store.sessions.get j) := by
      rw [session, entry, ← find, hf, Option.map_some]
    exact ⟨Or.inl hf, by rw [sessionOrNew, hsession, Option.getD_some], hu, hk⟩
  | none =>
    simp only [hf, Option.map_eq_some_iff, Prod.mk.injEq] at h
    obtain ⟨j, hv, rfl, rfl⟩ := h
    have hsession : store.session aid = none := by
      rw [session, entry, ← find, hf, Option.map_none]
    exact ⟨Or.inr ⟨hf, vacant_some hv⟩, by rw [sessionOrNew, hsession]; rfl, rfl, rfl⟩

theorem findOrAlloc_none (h : store.findOrAlloc aid = none) : store.session aid = none := by
  unfold findOrAlloc at h
  cases hf : store.find aid with
  | some j => simp [hf] at h
  | none => rw [session, entry, ← find, hf, Option.map_none]

/-- An aid that has a session is always served. -/
theorem findOrAlloc_isSome {s : SecureSession} (h : store.session aid = some s) :
    ∃ i, store.findOrAlloc aid = some (i, s) := by
  obtain ⟨i, hi, hs⟩ := entry_some h
  refine ⟨i, ?_⟩
  have hf : store.find aid = some i := hi
  simp only [findOrAlloc, hf, hs]

theorem session_put {i : Fin sessionMax} {s s' : SecureSession}
    (h : store.findOrAlloc aid = some (i, s)) (hu : s'.used = true) (ha : s'.aid = aid)
    (k : UInt32) : (store.put i s').session k = if k = aid then some s' else store.session k := by
  obtain ⟨hslot, -⟩ := findOrAlloc_some h
  rw [← ha] at hslot ⊢
  exact entry_set hslot hu k

/-- A change of a session that leaves it a session of its aid. -/
def Keeps (f : SecureSession → SecureSession) : Prop :=
  ∀ s, (f s).used = s.used ∧ (f s).aid = s.aid

/-- What an operation on one aid does: its session changes and no other, or there is no
room for it and nothing changes. -/
theorem session_modify (store : SecureStore) (aid : UInt32) {f : SecureSession → SecureSession}
    (hf : Keeps f) :
    (∀ k, (store.modify aid f).1.session k =
      if k = aid then some (f (store.sessionOrNew aid)) else store.session k) ∨
    (store.session aid = none ∧ (store.modify aid f).1 = store) := by
  unfold modify
  cases h : store.findOrAlloc aid with
  | none => exact Or.inr ⟨findOrAlloc_none h, rfl⟩
  | some is =>
    obtain ⟨i, s⟩ := is
    obtain ⟨-, rfl, hu, ha⟩ := findOrAlloc_some h
    obtain ⟨hused, haid⟩ := hf (store.sessionOrNew aid)
    exact Or.inl (session_put h (hused.trans hu) (haid.trans ha))

theorem session_sessionOrNew {s : SecureSession} (h : store.session aid = some s) :
    store.sessionOrNew aid = s := by
  rw [sessionOrNew, h, Option.getD_some]

/-- An aid that has a session keeps one. -/
theorem session_modify_of_some {s : SecureSession} (h : store.session aid = some s)
    {f : SecureSession → SecureSession} (hf : Keeps f) (k : UInt32) :
    (store.modify aid f).1.session k = if k = aid then some (f s) else store.session k := by
  rcases session_modify store aid hf with hk | ⟨hnone, -⟩
  · rw [hk, session_sessionOrNew h]
  · rw [hnone] at h
    cases h

theorem keeps_plaintextSent (aid : UInt32) (timestampRaw nowTs : UInt64) :
    Keeps fun s => s.plaintextSent aid timestampRaw nowTs :=
  fun _ => ⟨rfl, rfl⟩

theorem withPendingKey_cases (s : SecureSession) (aid : UInt32) (timestampRaw : UInt64) :
    (s.pendingKeySet = true ∧ s.withPendingKey aid timestampRaw = s) ∨
    (s.pendingKeySet = false ∧ s.withPendingKey aid timestampRaw = { s with
      pendingTimestamp := timestampRaw
      pendingKey := deriveKey aid timestampRaw
      pendingKeySet := true }) := by
  unfold SecureSession.withPendingKey
  cases hp : s.pendingKeySet with
  | true => exact Or.inl ⟨rfl, if_pos rfl⟩
  | false => exact Or.inr ⟨rfl, if_neg (by decide)⟩

theorem keeps_dictConfirmed (aid : UInt32) (timestampRaw nowTs : UInt64) :
    Keeps fun s => s.dictConfirmed aid timestampRaw nowTs := by
  intro s
  rcases withPendingKey_cases s aid timestampRaw with ⟨-, h⟩ | ⟨-, h⟩ <;>
    simp only [SecureSession.dictConfirmed, h, and_self]

theorem keeps_channelMarked (nowTs : UInt64) : Keeps fun s => s.channelMarked nowTs :=
  fun _ => ⟨rfl, rfl⟩

theorem getKey_eq (store : SecureStore) (aid : UInt32) : store.getKey aid =
    if (store.sessionOrNew aid).keySet then some (store.sessionOrNew aid).key else none := by
  unfold getKey sessionOrNew
  cases store.session aid <;> rfl

theorem shouldEncrypt_eq (store : SecureStore) (aid : UInt32) : store.shouldEncrypt aid =
    ((store.sessionOrNew aid).dictReady && (store.sessionOrNew aid).keySet) := by
  unfold shouldEncrypt sessionOrNew
  cases store.session aid <;> rfl

theorem isChannelConfirmed_eq (store : SecureStore) (aid : UInt32) :
    store.isChannelConfirmed aid = (store.sessionOrNew aid).decryptConfirmed := by
  unfold isChannelConfirmed sessionOrNew
  cases store.session aid <;> rfl

/-! ## The timestamp window -/

/-- The timestamp of the last data frame let through for an aid, 0 if there is none. -/
def window (store : SecureStore) (aid : UInt32) : UInt64 :=
  (store.sessionOrNew aid).lastDataTimestamp

/-- The frame is let through: its aid has a session or room for one, and no window yet or
one it is ahead of. -/
def Admits (store : SecureStore) (aid : UInt32) (timestampRaw : UInt64) : Prop :=
  (∃ i s, store.findOrAlloc aid = some (i, s)) ∧
  (store.window aid = 0 ∨ store.window aid < timestampRaw)

theorem window_le_of_admits {store : SecureStore} {aid : UInt32} {timestampRaw : UInt64}
    (h : store.Admits aid timestampRaw) : store.window aid ≤ timestampRaw := by
  rcases h.2 with hzero | hlt
  · rw [hzero]
    exact UInt64.zero_le
  · exact UInt64.le_of_lt hlt

/-- A change that leaves the timestamp alone leaves all windows alone. -/
theorem window_modify (store : SecureStore) (aid : UInt32) {f : SecureSession → SecureSession}
    (hf : Keeps f) (hw : ∀ s, (f s).lastDataTimestamp = s.lastDataTimestamp) (k : UInt32) :
    (store.modify aid f).1.window k = store.window k := by
  rcases session_modify store aid hf with hk | ⟨-, hsame⟩
  · unfold window
    by_cases h : k = aid
    · have hnew := (hk k).trans (if_pos h)
      rw [session_sessionOrNew hnew, hw, h]
    · simp only [sessionOrNew, (hk k).trans (if_neg h)]
  · rw [hsame]

theorem session_isSome_modify (store : SecureStore) (aid : UInt32)
    {f : SecureSession → SecureSession} (hf : Keeps f) {k : UInt32}
    (h : (store.session k).isSome = true) :
    ((store.modify aid f).1.session k).isSome = true := by
  rcases session_modify store aid hf with hk | ⟨-, hsame⟩
  · rw [hk]
    split
    · rfl
    · exact h
  · rw [hsame]
    exact h

theorem lastDataTimestamp_dictConfirmed (s : SecureSession) (aid : UInt32)
    (timestampRaw nowTs : UInt64) :
    (s.dictConfirmed aid timestampRaw nowTs).lastDataTimestamp = s.lastDataTimestamp := by
  rcases withPendingKey_cases s aid timestampRaw with ⟨-, h⟩ | ⟨-, h⟩ <;>
    simp only [SecureSession.dictConfirmed, h]

theorem checkAndUpdateTimestamp_none (h : store.findOrAlloc aid = none)
    (timestampRaw nowTs : UInt64) :
    store.checkAndUpdateTimestamp aid timestampRaw nowTs = (store, .outOfOrder) := by
  simp only [checkAndUpdateTimestamp, h]

/-- A check of a timestamp where there is a session, or room for one: it is let through if
it is ahead of the window, or there is none. -/
theorem checkAndUpdateTimestamp_some {i : Fin sessionMax} {s : SecureSession}
    (h : store.findOrAlloc aid = some (i, s)) (timestampRaw nowTs : UInt64) :
    ((s.lastDataTimestamp = 0 ∨ s.lastDataTimestamp < timestampRaw) ∧
      store.checkAndUpdateTimestamp aid timestampRaw nowTs =
        (store.put i { s with lastSeen := nowTs, lastDataTimestamp := timestampRaw }, .accept)) ∨
    (s.lastDataTimestamp ≠ 0 ∧ timestampRaw ≤ s.lastDataTimestamp ∧
      ∃ verdict : TsVerdict, verdict ≠ .accept ∧
        store.checkAndUpdateTimestamp aid timestampRaw nowTs =
          (store.put i { s with lastSeen := nowTs }, verdict)) := by
  simp only [checkAndUpdateTimestamp, h]
  by_cases hzero : s.lastDataTimestamp = 0
  · exact Or.inl ⟨Or.inl hzero, if_pos hzero⟩
  rw [if_neg hzero]
  by_cases heq : timestampRaw = s.lastDataTimestamp
  · exact Or.inr ⟨hzero, UInt64.le_of_eq heq, .replay, by decide, if_pos heq⟩
  rw [if_neg heq]
  by_cases hlt : timestampRaw < s.lastDataTimestamp
  · exact Or.inr ⟨hzero, UInt64.le_of_lt hlt, .outOfOrder, by decide, if_pos hlt⟩
  · have hgt : s.lastDataTimestamp < timestampRaw := by
      rw [UInt64.lt_iff_toNat_lt] at hlt ⊢
      have hne : timestampRaw.toNat ≠ s.lastDataTimestamp.toNat :=
        fun hn => heq (UInt64.toNat.inj hn)
      omega
    exact Or.inl ⟨Or.inr hgt, if_neg hlt⟩

/-- What a check of a timestamp does: it admits a frame and moves the window to it, or
leaves all windows where they are. -/
theorem checkAndUpdateTimestamp_cases (store : SecureStore) (aid : UInt32)
    (timestampRaw nowTs : UInt64) :
    (store.Admits aid timestampRaw ∧
      (store.checkAndUpdateTimestamp aid timestampRaw nowTs).2 = .accept ∧
      ∀ k, (store.checkAndUpdateTimestamp aid timestampRaw nowTs).1.session k =
        if k = aid then some { store.sessionOrNew aid with
          lastSeen := nowTs, lastDataTimestamp := timestampRaw }
        else store.session k) ∨
    (¬ store.Admits aid timestampRaw ∧
      (store.checkAndUpdateTimestamp aid timestampRaw nowTs).2 ≠ .accept ∧
      ∀ k, (store.checkAndUpdateTimestamp aid timestampRaw nowTs).1.session k =
        if k = aid then (store.session aid).map fun s => { s with lastSeen := nowTs }
        else store.session k) := by
  cases h : store.findOrAlloc aid with
  | none =>
    rw [checkAndUpdateTimestamp_none h]
    refine Or.inr ⟨?_, (by decide : TsVerdict.outOfOrder ≠ .accept), fun k => ?_⟩
    · rintro ⟨⟨i, s, hi⟩, -⟩
      rw [h] at hi
      cases hi
    · by_cases hk : k = aid
      · rw [if_pos hk, hk, findOrAlloc_none h, Option.map_none]
      · rw [if_neg hk]
  | some is =>
    obtain ⟨i, s⟩ := is
    have hcheck := checkAndUpdateTimestamp_some h timestampRaw nowTs
    obtain ⟨-, rfl, hu, ha⟩ := findOrAlloc_some h
    rcases hcheck with ⟨hahead, hcheck⟩ | ⟨hzero, hle, verdict, hreject, hcheck⟩
    · rw [hcheck]
      exact Or.inl ⟨⟨⟨i, _, h⟩, hahead⟩, rfl, session_put h hu ha⟩
    · rw [hcheck]
      refine Or.inr ⟨?_, hreject, ?_⟩
      · rintro ⟨-, hahead | hahead⟩
        · exact hzero hahead
        · exact UInt64.not_lt.mpr hle hahead
      · -- The window is not that of a new session.
        have hsome : store.session aid = some (store.sessionOrNew aid) := by
          cases hs : store.session aid with
          | none =>
            rw [sessionOrNew, hs] at hzero
            exact absurd rfl hzero
          | some s => rw [session_sessionOrNew hs]
        rw [hsome]
        exact session_put h hu ha

end SecureStore

end Osfx
