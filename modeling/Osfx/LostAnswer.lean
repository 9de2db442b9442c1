import Osfx.KeyExchange
import Osfx.SessionState

/-!
# Lost answers

The server answers a plaintext frame while its own session of the aid has no key. It does
not learn whether the answer arrives, and sends none twice: after a lost answer the frames
of the client are accepted in silence. `answered_while_no_key` says so for every state of
an exchange.
-/

namespace Osfx

open EventSystem SecureStore

/-- A session is ready exactly if it has a key. -/
def ReadyWithKey (s : SecureSession) : Prop := s.dictReady = true ↔ s.keySet = true

theorem readyWithKey_dispatch {n : Nat} {store store' : SecureStore}
    (h : AllUsed ReadyWithKey store) {d : Delivery n}
    (hstore : (d.dispatch store).ctx.secureStore = some store') :
    AllUsed ReadyWithKey store' := by
  refine dispatch_invariant (I := AllUsed ReadyWithKey) ?_ ?_ ?_ h hstore
  · intro store aid timestampRaw nowTs hs
    apply allUsed_checked hs
    intro i s window hi
    have hready : ReadyWithKey s := allUsed_found hs Iff.rfl hi
    exact hready
  · intro store aid timestampRaw nowTs hs
    apply allUsed_modify hs
    intro i s _
    exact ⟨fun _ => rfl, fun _ => rfl⟩
  · intro store aid nowTs hs
    apply allUsed_modify hs
    intro i s hi
    have hready : ReadyWithKey s := allUsed_found hs Iff.rfl hi
    exact hready

theorem shouldEncrypt_eq_isSome {store : SecureStore} (h : AllUsed ReadyWithKey store)
    (aid : UInt32) : store.shouldEncrypt aid = (store.getKey aid).isSome := by
  have hready : ReadyWithKey (store.sessionOrNew aid) := by
    cases hs : store.session aid with
    | none =>
      rw [sessionOrNew, hs]
      exact Iff.rfl
    | some s =>
      rw [session_sessionOrNew hs]
      exact allUsed_session h hs
  rw [shouldEncrypt_eq, getKey_eq]
  cases hkey : (store.sessionOrNew aid).keySet with
  | false => rw [Bool.and_false, if_neg (by decide), Option.isSome_none]
  | true => rw [hready.mpr hkey, Bool.and_self, if_pos rfl, Option.isSome_some]

/-- Only frames are handed to the server. -/
theorem exchangeStep_server (aid : UInt32) (w : KeyExchange) (e : ExchangeEvent)
    (w' : KeyExchange) (hready : AllUsed ReadyWithKey w.server)
    (h : exchangeStep aid w e = some w') : AllUsed ReadyWithKey w'.server := by
  cases e with
  | send cmd tid timestampRaw nowTs body =>
    simp only [exchangeStep] at h
    split at h
    · cases h
      exact hready
    · cases h
  | serve i nowTs =>
    simp only [exchangeStep, Option.bind_eq_bind, Option.bind_eq_some_iff] at h
    obtain ⟨packet, -, h⟩ := h
    split at h
    · obtain ⟨server, hserver, h⟩ := Option.bind_eq_some_iff.mp h
      cases h
      exact readyWithKey_dispatch hready hserver
    · cases h
  | answer i nowTs =>
    simp only [exchangeStep, Option.bind_eq_bind, Option.bind_eq_some_iff] at h
    obtain ⟨packet, -, h⟩ := h
    split at h
    · obtain ⟨client, -, h⟩ := Option.bind_eq_some_iff.mp h
      cases h
      exact hready
    · cases h
  | lose i =>
    simp only [exchangeStep] at h
    split at h
    · cases h
      exact hready
    · cases h

theorem server_ready {aid : UInt32} {clientExpire serverExpire : UInt64}
    {es : List ExchangeEvent} {w : KeyExchange}
    (hrun : run (exchangeStep aid) (.init clientExpire serverExpire) es = some w) :
    AllUsed ReadyWithKey w.server := by
  refine run_invariant (exchangeStep aid) (I := fun w => AllUsed ReadyWithKey w.server)
    (exchangeStep_server aid) ?_ hrun
  intro i hi
  have hok := (storeOk_init serverExpire).sessions i hi
  exact hok.ready

/-- A plaintext frame of the client that the server accepts is answered exactly while the
server has no key, whether the client has one or not. -/
theorem answered_while_no_key {aid : UInt32} {clientExpire serverExpire : UInt64}
    {es : List ExchangeEvent} {w : KeyExchange}
    (hrun : run (exchangeStep aid) (.init clientExpire serverExpire) es = some w)
    {cmd : UInt8} (hcmd : isDataCmd cmd = true) (tid : UInt8) (timestampRaw nowTs : UInt64)
    (body : Bytes)
    (haccept : (handOver w.server (packetFrame cmd aid tid timestampRaw body) nowTs).ret = true) :
    (handOver w.server (packetFrame cmd aid tid timestampRaw body) nowTs).result.response =
      if w.server.getKey aid = none then some (readyPacket aid (wireTimestamp timestampRaw))
      else none := by
  have hkey := shouldEncrypt_eq_isSome (server_ready hrun) aid
  have hplain : Plaintext (packetFrame cmd aid tid timestampRaw body) :=
    (isDataCmd_normalize hcmd).symm
  have hframe := dispatch_frame
    (d := (⟨packetFrame cmd aid tid timestampRaw body, nowTs, none⟩ : Delivery 0))
    (dataMeta_frame aid tid timestampRaw body hcmd) rfl w.server
  unfold handOver at haccept ⊢
  generalize Delivery.dispatch _ w.server = o at hframe haccept ⊢
  cases hframe with
  | late | noKey => cases haccept
  | confirmsKey _ _ hnokey =>
    rw [hnokey, eq_comm, Option.isSome_eq_false_iff, Option.isNone_iff_eq_none] at hkey
    rw [writeResponse_ready, if_pos hkey]
  | confirmsChannel _ hsecure => exact absurd hplain hsecure
  | passes _ hset =>
    rw [hset] at hkey
    rw [if_neg]
    · rfl
    · intro hnone
      rw [hnone] at hkey
      cases hkey

/-- The first frame is served and its answer is lost, and then a second frame is sent. -/
def answerLost : List ExchangeEvent :=
  [.send Cmd.dataFull 1 1 100 (ascii "A.U.1|T>m:v|"), .serve 0 100, .lose 0,
    .send Cmd.dataFull 1 2 101 (ascii "A.U.2|T>m:v|")]

/-- The second frame, as it arrives. -/
def secondFrame : Bytes := packetFrame Cmd.dataFull 1 1 2 (ascii "A.U.2|T>m:v|")

/-- In the state that run ends in, the server has a key and does not answer the second frame. -/
theorem second_frame_unanswered :
    ∃ w, run (exchangeStep 1) (.init 60 60) answerLost = some w ∧
      w.server.getKey 1 = some (deriveKey 1 1) ∧
      (handOver w.server secondFrame 102).result.response =
        if w.server.getKey 1 = none then some (readyPacket 1 (wireTimestamp 2)) else none := by
  have hserver : (run (exchangeStep 1) (.init 60 60) answerLost).map
      (fun w => w.server.getKey 1) = some (some (deriveKey 1 1)) := by
    decide +kernel
  have haccepted : (run (exchangeStep 1) (.init 60 60) answerLost).map
      (fun w => (handOver w.server secondFrame 102).ret) = some true := by
    decide +kernel
  obtain ⟨w, hrun, hkey⟩ := Option.map_eq_some_iff.mp hserver
  rw [hrun, Option.map_some, Option.some.injEq] at haccepted
  have hcmd : isDataCmd Cmd.dataFull = true := by decide
  unfold secondFrame at haccepted ⊢
  exact ⟨w, hrun, hkey,
    answered_while_no_key hrun hcmd 1 2 102 (ascii "A.U.2|T>m:v|") haccepted⟩

/-- The server has a key and the client has none, and the second frame is accepted without
an answer. -/
theorem lost_answer_not_repeated :
    ∃ w, run (exchangeStep 1) (.init 60 60) answerLost = some w ∧
      w.server.getKey 1 = some (deriveKey 1 1) ∧ w.client.getKey 1 = none ∧
      w.inFlight = [secondFrame] ∧ (handOver w.server secondFrame 102).ret = true ∧
      (handOver w.server secondFrame 102).result.response = none := by
  have hsome : (run (exchangeStep 1) (.init 60 60) answerLost).isSome = true := by
    decide +kernel
  have hkeys : (run (exchangeStep 1) (.init 60 60) answerLost).map
      (fun w => (w.server.getKey 1, w.client.getKey 1)) = some (some (deriveKey 1 1), none) := by
    decide +kernel
  have hflight : (run (exchangeStep 1) (.init 60 60) answerLost).map
      (fun w => w.inFlight) = some [secondFrame] := by
    decide +kernel
  have hserved : (run (exchangeStep 1) (.init 60 60) answerLost).map
      (fun w => ((handOver w.server secondFrame 102).ret,
        (handOver w.server secondFrame 102).result.response)) = some (true, none) := by
    decide +kernel
  obtain ⟨w, hrun⟩ := Option.isSome_iff_exists.mp hsome
  rw [hrun, Option.map_some, Option.some.injEq, Prod.mk.injEq] at hkeys hserved
  rw [hrun, Option.map_some, Option.some.injEq] at hflight
  exact ⟨w, hrun, hkeys.1, hkeys.2, hflight, hserved.1, hserved.2⟩

end Osfx
