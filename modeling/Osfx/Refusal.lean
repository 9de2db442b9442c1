import Osfx.FrameOutcome

/-!
# Refused frames

The timestamp of a data frame is checked before its key is looked for. A secure frame
of an aid without a key is refused, but by then its timestamp has moved the window of
the aid and has made a session for it. `refusedHarmless_iff` says that no other refusal
changes more of a session than when it was last seen.
-/

namespace Osfx

open SecureStore

/-- A session apart from when it was last seen. -/
def SecureSession.unseen (s : SecureSession) : SecureSession := { s with lastSeen := 0 }

namespace SecureStore

/-- The same aids have sessions, and each is what it was apart from when it was last seen. -/
def SameSecurity (store store' : SecureStore) : Prop :=
  ∀ k, (store'.session k).map SecureSession.unseen = (store.session k).map SecureSession.unseen

variable {store : SecureStore} {aid : UInt32} {timestampRaw : UInt64}

theorem SameSecurity.refl (store : SecureStore) : SameSecurity store store := fun _ => rfl

theorem sameSecurity_late (h : ¬ store.Admits aid timestampRaw) (nowTs : UInt64) :
    SameSecurity store (store.checked aid timestampRaw nowTs) := by
  rcases checkAndUpdateTimestamp_cases store aid timestampRaw nowTs with ⟨hopen, -⟩ | ⟨-, -, hk⟩
  · exact absurd hopen h
  · intro k
    rw [checked, hk k]
    split
    · rename_i hka
      rw [hka]
      cases store.session aid <;> rfl
    · rfl

/-- A timestamp that is let through is new to its session, or its aid is new. -/
theorem sameSecurity_admitted (h : store.Admits aid timestampRaw) (nowTs : UInt64) :
    SameSecurity store (store.checked aid timestampRaw nowTs) ↔
      store.session aid ≠ none ∧ store.window aid = timestampRaw := by
  rcases checkAndUpdateTimestamp_cases store aid timestampRaw nowTs with ⟨-, -, hk⟩ | ⟨hshut, -⟩
  case inr => exact absurd h hshut
  constructor
  · intro hsame
    have haid := hsame aid
    rw [checked, hk aid, if_pos rfl] at haid
    cases hs : store.session aid with
    | none =>
      rw [hs] at haid
      cases haid
    | some s =>
      rw [hs, session_sessionOrNew hs] at haid
      have hunseen := Option.some.inj haid
      have hts : timestampRaw = s.lastDataTimestamp :=
        congrArg SecureSession.lastDataTimestamp hunseen
      rw [window, session_sessionOrNew hs]
      exact ⟨Option.some_ne_none s, hts.symm⟩
  · rintro ⟨hsome, hwindow⟩ k
    obtain ⟨s, hs⟩ := Option.ne_none_iff_exists'.mp hsome
    rw [window, session_sessionOrNew hs] at hwindow
    rw [checked, hk k]
    split
    · rename_i hka
      rw [hka, hs, session_sessionOrNew hs, ← hwindow]
      rfl
    · rfl

end SecureStore

variable {n : Nat}

/-- If the packet is refused, the security state is what it was. -/
def RefusedHarmless (store : SecureStore) (d : Delivery n) : Prop :=
  (d.dispatch store).ret = false →
    ∃ store', (d.dispatch store).ctx.secureStore = some store' ∧ SameSecurity store store'

/-- A secure frame of an aid without a key, with a right CRC16 and a timestamp that is
let through and is new to the aid. -/
def LockedOut (store : SecureStore) (packet : Bytes) : Prop :=
  ∃ pm, dataMeta packet = some pm ∧ pm.crc16Ok = true ∧ ¬ Plaintext packet ∧
    store.shouldEncrypt pm.sourceAid = false ∧ store.Admits pm.sourceAid pm.timestampRaw ∧
    ¬ (store.session pm.sourceAid ≠ none ∧ store.window pm.sourceAid = pm.timestampRaw)

theorem lockedOut_moves {store : SecureStore} {d : Delivery n} (h : LockedOut store d.packet) :
    ¬ RefusedHarmless store d := by
  obtain ⟨pm, hmeta, hcrc, hsecure, hnokey, hopen, hnew⟩ := h
  intro hharmless
  unfold RefusedHarmless at hharmless
  have hframe := dispatch_frame hmeta hcrc store
  generalize d.dispatch store = o at hframe hharmless
  cases hframe with
  | late hshut => exact hshut hopen
  | noKey =>
    obtain ⟨store', hstore, hsame⟩ := hharmless rfl
    cases hstore
    exact hnew ((sameSecurity_admitted hopen d.nowTs).mp hsame)
  | confirmsKey _ hplain => exact hsecure hplain
  | confirmsChannel _ _ hkey | passes _ hkey =>
    rw [hnokey] at hkey
    cases hkey

/-- A refusal changes the security state exactly if the frame is locked out. -/
theorem refusedHarmless_iff (store : SecureStore) (d : Delivery n) :
    RefusedHarmless store d ↔ ¬ LockedOut store d.packet := by
  refine ⟨fun h hlocked => lockedOut_moves hlocked h, fun hnot => ?_⟩
  unfold RefusedHarmless
  intro hret
  rcases noFrame_or_frame d.packet with hother | ⟨pm, hmeta, hcrc⟩
  · have hout := dispatch_noFrame hother store
    generalize d.dispatch store = o at hout hret
    cases hout with
    | keeps _ _ hstore => exact ⟨store, hstore, .refl store⟩
    | dictReady _ hok | channelAck _ hok =>
      rw [hret] at hok
      cases hok
  · have hframe := dispatch_frame hmeta hcrc store
    generalize d.dispatch store = o at hframe hret
    cases hframe with
    | late hshut => exact ⟨_, rfl, sameSecurity_late hshut d.nowTs⟩
    | noKey hopen hsecure hnokey =>
      refine ⟨_, rfl, (sameSecurity_admitted hopen d.nowTs).mpr ?_⟩
      exact Classical.byContradiction fun hnew =>
        hnot ⟨pm, hmeta, hcrc, hsecure, hnokey, hopen, hnew⟩
    | confirmsKey | confirmsChannel | passes => cases hret

/-- A secure FULL of aid 1. -/
def secureFrameAt (ts : UInt64) : Delivery 16 :=
  ⟨packetFrame Cmd.dataFullSec 1 1 ts (ascii "A.U.1|T>m:v|"), 100, none⟩

/-- A secure frame is refused for want of a key, and the first plaintext frame of the
aid, which a new store accepts, is then out of order. -/
theorem refused_frame_blocks_genuine :
    ∃ store', ((secureFrameAt 9).dispatch (secureStoreInit 60)).ret = false ∧
      ((secureFrameAt 9).dispatch (secureStoreInit 60)).result.reject = .noSession ∧
      ((secureFrameAt 9).dispatch (secureStoreInit 60)).ctx.secureStore = some store' ∧
      ¬ SameSecurity (secureStoreInit 60) store' ∧
      ((frameAt 8).dispatch (secureStoreInit 60)).ret = true ∧
      ((frameAt 8).dispatch store').ret = false := by
  have hsome : ((secureFrameAt 9).dispatch (secureStoreInit 60)).ctx.secureStore.isSome = true := by
    decide +kernel
  have hdiffer : ((secureFrameAt 9).dispatch (secureStoreInit 60)).ctx.secureStore.bind
      (fun store' => (store'.session 1).map SecureSession.unseen) ≠
      ((secureStoreInit 60).session 1).map SecureSession.unseen := by
    decide +kernel
  have hblocked : ((secureFrameAt 9).dispatch (secureStoreInit 60)).ctx.secureStore.map
      (fun store' => ((frameAt 8).dispatch store').ret) = some false := by
    decide +kernel
  obtain ⟨store', hstore⟩ := Option.isSome_iff_exists.mp hsome
  rw [hstore] at hdiffer hblocked
  refine ⟨store', by decide +kernel, by decide +kernel, hstore, fun h => hdiffer (h 1),
    by decide +kernel, Option.some.inj hblocked⟩

end Osfx
