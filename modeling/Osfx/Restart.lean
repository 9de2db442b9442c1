import Osfx.Expiry
import Osfx.Lib.Durable
import Osfx.SessionStorage

/-!
# Replay across restarts

A receiver saves its sessions with `osfx_secure_store_save` and reads them back after a
restart with `osfx_secure_store_load`. The timestamps that were seen are part of the file,
so that a restart does not open the windows: the timestamps accepted of an aid go on
increasing (`increasing_across_restarts`), if no frame was accepted since the save and no
session of which one was has expired. A frame accepted after the save is accepted once
more after the restart (`unsaved_accepted_again`).
-/

namespace Osfx

open EventSystem SlotTable SecureStore

variable {n : Nat}

/-! ## Calls, packets and their log -/

/-- The data frames a store has accepted, each with its aid and timestamp. -/
abbrev DataLog := List (UInt32 × UInt64)

/-- A call, or a packet, whose data is logged if it is accepted. -/
def loggedStep (w : SecureStore × DataLog) : SessionOp n → Option (SecureStore × DataLog)
  | .dispatch d => (receive ⟨w.1, w.2⟩ d).map fun r => (r.store, r.accepted)
  | op => (sessionStep w.1 op).map fun store => (store, w.2)

/-- What a call should leave alone: no frame repeats a timestamp 0, and no session of
which data was accepted expires. -/
def KeepsWindows (w : SecureStore × DataLog) : SessionOp n → Prop
  | .dispatch d => ¬ RepeatsZero ⟨w.1, w.2⟩ d
  | .cleanup nowTs => ∀ a ∈ w.2, ∀ s, w.1.session a.1 = some s → ¬ w.1.Expired nowTs s
  | _ => True

/-- What was accepted is behind the windows of a store without double aids. -/
structure WindowsOk (store : SecureStore) (log : DataLog) : Prop where
  behind : ReceiverOk ⟨store, log⟩
  distinct : AidsDistinct store

theorem receiverOk_of_windows {store store' : SecureStore} {log : DataLog}
    (h : ReceiverOk ⟨store, log⟩)
    (hsession : ∀ a ∈ log, (store.session a.1).isSome = true → (store'.session a.1).isSome = true)
    (hwindow : ∀ a ∈ log, (store.session a.1).isSome = true →
      store.window a.1 ≤ store'.window a.1) : ReceiverOk ⟨store', log⟩ where
  increasing := h.increasing
  behind a ha := UInt64.le_trans (h.behind a ha) (hwindow a ha (h.session a ha))
  session a ha := hsession a ha (h.session a ha)

/-- Sessions that are the same have the same windows. -/
theorem receiverOk_congr {store store' : SecureStore} {log : DataLog}
    (h : ReceiverOk ⟨store, log⟩)
    (hsession : ∀ a ∈ log, (store.session a.1).isSome = true →
      store'.session a.1 = store.session a.1) : ReceiverOk ⟨store', log⟩ := by
  refine receiverOk_of_windows h ?_ ?_
  · intro a ha hsome
    rw [hsession a ha hsome]
    exact hsome
  · intro a ha hsome
    rw [window, window, sessionOrNew, sessionOrNew, hsession a ha hsome]
    exact UInt64.le_refl _

theorem receiverOk_modify {store : SecureStore} {log : DataLog} (h : ReceiverOk ⟨store, log⟩)
    (aid : UInt32) {f : SecureSession → SecureSession} (hf : Keeps f)
    (hw : ∀ s, (f s).lastDataTimestamp = s.lastDataTimestamp) :
    ReceiverOk ⟨(store.modify aid f).1, log⟩ := by
  refine receiverOk_of_windows h ?_ ?_
  · exact fun _ _ hsome => session_isSome_modify store aid hf hsome
  · intro a _ _
    rw [window_modify store aid hf hw]
    exact UInt64.le_refl _

theorem receiverOk_cleanup {store : SecureStore} {log : DataLog} (h : WindowsOk store log)
    {nowTs : UInt64}
    (hlive : ∀ a ∈ log, ∀ s, store.session a.1 = some s → ¬ store.Expired nowTs s) :
    ReceiverOk ⟨store.cleanup nowTs, log⟩ := by
  refine receiverOk_congr h.behind fun a ha hsome => ?_
  obtain ⟨s, hs⟩ := Option.isSome_iff_exists.mp hsome
  rw [session_cleanup_live h.distinct hs (hlive a ha s hs), hs]

/-- A check moves no window back. -/
theorem window_le_check (store : SecureStore) (aid : UInt32) (timestampRaw nowTs : UInt64)
    (k : UInt32) : store.window k ≤
      (store.checkAndUpdateTimestamp aid timestampRaw nowTs).1.window k := by
  obtain ⟨hopen, hclosed⟩ := window_check store aid timestampRaw nowTs k
  by_cases h : store.Admits aid timestampRaw
  · rw [hopen h]
    split
    · rename_i hk
      rw [hk]
      exact window_le_of_admits h
    · exact UInt64.le_refl _
  · rw [hclosed h]
    exact UInt64.le_refl _

theorem loggedStep_windowsOk (w : SecureStore × DataLog) (op : SessionOp n)
    (w' : SecureStore × DataLog) (h : WindowsOk w.1 w.2) (hkeeps : KeepsWindows w op)
    (hstep : loggedStep w op = some w') : WindowsOk w'.1 w'.2 := by
  cases op with
  | dispatch d =>
    obtain ⟨r, hr, rfl⟩ := Option.map_eq_some_iff.mp hstep
    refine ⟨receive_keeps _ d r h.behind hkeeps hr, ?_⟩
    obtain ⟨store, hstore, rfl⟩ := Option.map_eq_some_iff.mp hr
    exact aidsDistinct_dispatch h.distinct hstore
  | notePlaintextSent aid timestampRaw nowTs =>
    cases hstep
    have hf := keeps_plaintextSent aid timestampRaw nowTs
    exact ⟨receiverOk_modify h.behind aid hf fun _ => rfl, aidsDistinct_modify h.distinct hf⟩
  | confirmDict aid timestampRaw nowTs =>
    cases hstep
    have hf := keeps_dictConfirmed aid timestampRaw nowTs
    refine ⟨receiverOk_modify h.behind aid hf fun s => ?_, aidsDistinct_modify h.distinct hf⟩
    exact lastDataTimestamp_dictConfirmed s aid timestampRaw nowTs
  | markChannel aid nowTs =>
    cases hstep
    have hf := keeps_channelMarked nowTs
    exact ⟨receiverOk_modify h.behind aid hf fun _ => rfl, aidsDistinct_modify h.distinct hf⟩
  | checkAndUpdateTimestamp aid timestampRaw nowTs =>
    cases hstep
    refine ⟨receiverOk_of_windows h.behind ?_ ?_,
      aidsDistinct_checked h.distinct aid timestampRaw nowTs⟩
    · exact fun _ _ hsome => session_isSome_check w.1 aid timestampRaw nowTs hsome
    · exact fun a _ _ => window_le_check w.1 aid timestampRaw nowTs a.1
  | cleanup nowTs =>
    cases hstep
    exact ⟨receiverOk_cleanup h hkeeps, aidsDistinct_cleanup h.distinct nowTs⟩

/-! ## Restarts -/

/-- What a save writes. -/
def sessionFile (store : SecureStore) : Option Bytes := some (store.save true).1

/-- The store of a receiver that has just started: a new one, with the sessions on file. -/
def bootStore (expire : UInt64) (file : Option Bytes) : SecureStore :=
  ((secureStoreInit expire).load file).1

/-- A receiver that never ran before. -/
def firstBoot (expire : UInt64) : Durable SecureStore DataLog (Option Bytes) :=
  ⟨secureStoreInit expire, [], none, []⟩

def receiverStep : Durable SecureStore DataLog (Option Bytes) →
    DurableEvent (SessionOp n) UInt64 → Option (Durable SecureStore DataLog (Option Bytes)) :=
  durableStep loggedStep sessionFile bootStore

theorem bootStore_session {store : SecureStore} (h : AidsDistinct store) (expire : UInt64)
    (aid : UInt32) : (bootStore expire (sessionFile store)).session aid = store.session aid :=
  (load_saved h (secureStoreInit expire)).2 aid

theorem bootStore_distinct (expire : UInt64) (file : Option Bytes) :
    AidsDistinct (bootStore expire file) :=
  aidsDistinct_load (storeOk_init expire).distinct file

theorem windowsOk_nil {store : SecureStore} (h : AidsDistinct store) : WindowsOk store [] := by
  refine ⟨⟨List.Pairwise.nil, ?_, ?_⟩, h⟩
  · intro a ha
    cases ha
  · intro a ha
    cases ha

theorem windowsOk_boot (store : SecureStore) (log : DataLog) (expire : UInt64)
    (h : WindowsOk store log) : WindowsOk (bootStore expire (sessionFile store)) log where
  behind := receiverOk_congr h.behind fun a _ _ => bootStore_session h.distinct expire a.1
  distinct := bootStore_distinct expire _

/-- In every run of calls, packets, saves and restarts the timestamps accepted of each aid
are strictly increasing, if no frame repeats a timestamp 0, no session of which data was
accepted expires, and no data was accepted between a restart and the save before it. -/
theorem increasing_across_restarts (expire : UInt64) (es : List (DurableEvent (SessionOp n) UInt64))
    (h : Each receiverStep (Lossless KeepsWindows) (firstBoot expire) es) :
    Always receiverStep (fun w => StrictlyIncreasing ⟨w.state, w.log⟩) (firstBoot expire) es := by
  have hboot : HeldOnFile bootStore WindowsOk (firstBoot expire) :=
    ⟨windowsOk_nil (storeOk_init expire).distinct,
      fun b => windowsOk_nil (bootStore_distinct b none)⟩
  have hall := durable_always loggedStep_windowsOk windowsOk_boot hboot h
  exact always_mono _ (fun _ hw => hw.behind.increasing) hall

/-- A frame, the save, a restart, the same frame, and the next one. -/
def heardAgain : List (DurableEvent (SessionOp 16) UInt64) :=
  [.step (.dispatch (frameAt 8)), .save, .restart 60, .step (.dispatch (frameAt 8)),
    .step (.dispatch (frameAt 9))]

theorem not_repeatsZero_frameAt {w : Receiver} {ts : UInt64}
    (h : (dataMeta (frameAt ts).packet).all (·.timestampRaw ≠ 0) = true) :
    ¬ RepeatsZero w (frameAt ts) := by
  rintro ⟨pm, hmeta, -, hzero, -⟩
  rw [hmeta, Option.all_some, decide_eq_true_eq] at h
  exact h hzero

/-- Only the next one is accepted after the restart. -/
theorem heardAgain_refused :
    ((run receiverStep (firstBoot 60) heardAgain).map (·.log)) = some [(1, 8), (1, 9)] ∧
      Always receiverStep (fun w => StrictlyIncreasing ⟨w.state, w.log⟩) (firstBoot 60)
        heardAgain := by
  refine ⟨by decide +kernel, increasing_across_restarts 60 heardAgain ?_⟩
  refine ⟨not_repeatsZero_frameAt (by decide +kernel), fun w _ => ⟨trivial, fun w' hsave => ?_⟩⟩
  refine ⟨?_, fun _ _ => ⟨not_repeatsZero_frameAt (by decide +kernel), fun _ _ => ?_⟩⟩
  · cases hsave
    rfl
  · exact ⟨not_repeatsZero_frameAt (by decide +kernel), fun _ _ => trivial⟩

/-- A frame that is accepted after the save is accepted after the restart too, so that
saving before it does not protect from its replay. -/
theorem unsaved_accepted_again {store : SecureStore} (hd : AidsDistinct store) {packet : Bytes}
    {pm : PacketMeta} (hs : (store.session pm.sourceAid).isSome = true)
    (h : Accepts store packet pm) (expire : UInt64) :
    Accepts (bootStore expire (sessionFile store)) packet pm := by
  obtain ⟨hmeta, hcrc, hadmits, hread⟩ := h
  have hsame := bootStore_session hd expire pm.sourceAid
  refine ⟨hmeta, hcrc, ⟨?_, ?_⟩, ?_⟩
  · obtain ⟨s, hs⟩ := Option.isSome_iff_exists.mp hs
    obtain ⟨i, hi⟩ := findOrAlloc_isSome (hsame.trans hs)
    exact ⟨i, s, hi⟩
  · have hwindow := hadmits.2
    rw [window, sessionOrNew] at hwindow ⊢
    rw [hsame]
    exact hwindow
  · rw [Readable, shouldEncrypt] at hread ⊢
    rw [hsame]
    exact hread

end Osfx
