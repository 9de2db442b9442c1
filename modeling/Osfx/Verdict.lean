import Osfx.Replay

/-!
# Verdicts

`osfx_hs_classify_dispatch` says five things of a packet: its return value, `ok`, `reject`,
`kind` and the response. Each exit sets them on its own. `Verdict` is what they have in
common, one lemma for each way to leave, and `dispatch_coherent` what a caller can rely on.
-/

namespace Osfx

/-- `has_response` and `response_len`. -/
def HsResult.hasResponse (r : HsResult) : Bool := r.response.isSome

def HsResult.responseLen (r : HsResult) : Nat := (r.response.getD []).length

/-- The answers of an accepted packet that open a channel or give an id. -/
def grants : List UInt8 := [Cmd.secureDictReady, Cmd.secureChannelAck, Cmd.idAssign]

section
variable {n : Nat}

/-- Return value, `ok` and `reject` agree, a response is neither empty nor too long, and
that of a refused packet grants nothing. -/
structure Verdict (kind : HsKind) (o : HsOutcome n) : Prop where
  kind : o.result.kind = kind
  ok : o.result.ok = o.ret
  reject : o.result.reject = .none ↔ o.ret = true
  response : ∀ data, o.result.response = some data → data ≠ [] ∧ data.length ≤ hsRespMax
  refused : o.ret = false → ∀ data, o.result.response = some data → data.getD 0 0 ∉ grants

/-- A result as the handlers get it. -/
structure HsResult.Open (r : HsResult) : Prop where
  ok : r.ok = true
  reject : r.reject = .none
  response : r.response = none

namespace HsResult

@[simp] theorem writeResponse_ok (r : HsResult) (data : Option Bytes) :
    (r.writeResponse data).ok = r.ok := by
  unfold writeResponse
  split
  · rfl
  · split <;> rfl

@[simp] theorem writeResponse_reject (r : HsResult) (data : Option Bytes) :
    (r.writeResponse data).reject = r.reject := by
  unfold writeResponse
  split
  · rfl
  · split <;> rfl

/-- A response is what was written, and it fits. -/
theorem writeResponse_some {r : HsResult} (hr : r.response = none) {data : Option Bytes}
    {response : Bytes} (h : (r.writeResponse data).response = some response) :
    data = some response ∧ response.length ≤ hsRespMax := by
  cases data with
  | none =>
    rw [writeResponse, hr] at h
    cases h
  | some bytes =>
    rw [writeResponse] at h
    split at h
    · rw [hr] at h
      cases h
    · rename_i hfits
      cases h
      exact ⟨rfl, Nat.not_lt.mp hfits⟩

end HsResult

/-! ## The ways to leave -/

variable {ctx : HsDispatchCtx n} {r : HsResult}

theorem verdict_answered (hr : r.Open) {data : Option Bytes}
    (hdata : ∀ bytes, data = some bytes → bytes ≠ []) :
    Verdict r.kind (⟨true, r.writeResponse data, ctx⟩ : HsOutcome n) where
  kind := writeResponse_kind r data
  ok := (r.writeResponse_ok data).trans hr.ok
  reject := by simp [hr.reject]
  response := by
    intro bytes h
    obtain ⟨hwritten, hfits⟩ := HsResult.writeResponse_some hr.response h
    exact ⟨hdata bytes hwritten, hfits⟩
  refused := by
    intro h
    cases h

/-- What is written is the bytes of a packet, command first. -/
theorem verdict_answered_cons (hr : r.Open) (cmd : UInt8) (rest : Bytes) :
    Verdict r.kind (⟨true, r.writeResponse (some (cmd :: rest)), ctx⟩ : HsOutcome n) := by
  refine verdict_answered hr fun bytes h => ?_
  cases h
  exact List.cons_ne_nil _ _

theorem verdict_silent (hr : r.Open) : Verdict r.kind (⟨true, r, ctx⟩ : HsOutcome n) := by
  have hnone : ∀ bytes, (none : Option Bytes) = some bytes → bytes ≠ [] := by
    intro bytes h
    cases h
  exact verdict_answered hr hnone

theorem verdict_refused (hr : r.response = none) {reject : HsReject} (hreject : reject ≠ .none) :
    Verdict r.kind (⟨false, r.setReject reject, ctx⟩ : HsOutcome n) where
  kind := rfl
  ok := rfl
  reject := iff_of_false hreject Bool.false_ne_true
  response := by
    intro bytes h
    rw [HsResult.setReject, hr] at h
    cases h
  refused := by
    intro _ bytes h
    rw [HsResult.setReject, hr] at h
    cases h

theorem buildNack_some {seq : UInt16} {reason : Bytes} {outCap : Nat} {data : Bytes}
    (h : buildNack seq reason outCap = some data) :
    data ≠ [] ∧ data.getD 0 0 = Cmd.handshakeNack := by
  unfold buildNack at h
  split at h
  · cases h
  · cases h
    exact ⟨List.cons_ne_nil _ _, rfl⟩

theorem verdict_nacked (hr : r.response = none) {reject : HsReject} (hreject : reject ≠ .none)
    (seq : UInt16) (reason : Bytes) :
    Verdict r.kind
      (⟨false, (r.setReject reject).maybeWriteNackSeq seq reason, ctx⟩ : HsOutcome n) := by
  have hwritten : ∀ bytes, ((r.setReject reject).maybeWriteNackSeq seq reason).response =
      some bytes → buildNack seq reason hsRespMax = some bytes ∧ bytes.length ≤ hsRespMax :=
    fun bytes h => HsResult.writeResponse_some (r := r.setReject reject) hr h
  refine ⟨maybeWriteNackSeq_kind _ seq reason, ?_, ?_, fun bytes h => ?_, fun _ bytes h => ?_⟩
  · exact HsResult.writeResponse_ok _ _
  · rw [HsResult.maybeWriteNackSeq, HsResult.writeResponse_reject]
    exact iff_of_false hreject Bool.false_ne_true
  · obtain ⟨hbuild, hfits⟩ := hwritten bytes h
    exact ⟨(buildNack_some hbuild).1, hfits⟩
  · rw [(buildNack_some (hwritten bytes h).1).2]
    decide

/-! ## Control packets -/

theorem dispatchPing_verdict (ctx : HsDispatchCtx n) (packet : Bytes) (hr : r.Open) :
    Verdict r.kind (dispatchPing ctx packet r) := by
  unfold dispatchPing
  split
  · exact verdict_refused hr.response (by decide)
  · exact verdict_answered_cons hr _ _

theorem dispatchTimeRequest_verdict (ctx : HsDispatchCtx n) (packet : Bytes) (hr : r.Open) :
    Verdict r.kind (dispatchTimeRequest ctx packet r) := by
  unfold dispatchTimeRequest
  split
  · exact verdict_refused hr.response (by decide)
  · exact verdict_answered_cons hr _ _

/-- The answer is an id, or a NACK that may not have been built. -/
theorem dispatchIdRequest_verdict (ctx : HsDispatchCtx n) (packet : Bytes) (hr : r.Open) :
    Verdict r.kind (dispatchIdRequest ctx packet r) := by
  unfold dispatchIdRequest
  split
  · exact verdict_nacked hr.response (by decide) _ _
  · split
    · exact verdict_nacked hr.response (by decide) _ _
    · split
      · exact verdict_answered_cons hr _ _
      · exact verdict_answered hr fun bytes h => (buildNack_some h).1

theorem dispatchDictReady_verdict (ctx : HsDispatchCtx n) (packet : Bytes) (hr : r.Open) :
    Verdict r.kind (dispatchDictReady ctx packet r) := by
  unfold dispatchDictReady
  split
  · exact verdict_refused hr.response (by decide)
  · split
    · exact verdict_refused hr.response (by decide)
    · exact verdict_silent hr

theorem dispatchChannelAck_verdict (ctx : HsDispatchCtx n) (packet : Bytes) (hr : r.Open) :
    Verdict r.kind (dispatchChannelAck ctx packet r) := by
  unfold dispatchChannelAck
  split
  · exact verdict_refused hr.response (by decide)
  · split
    · exact verdict_refused hr.response (by decide)
    · exact verdict_silent hr

/-- A control packet keeps its kind, or it is unknown, unsupported and not answered. -/
theorem dispatchCtrl_verdict (ctx : HsDispatchCtx n) (packet : Bytes) (hr : r.Open) :
    Verdict r.kind (dispatchCtrl ctx packet r) ∨
      (Verdict .unknown (dispatchCtrl ctx packet r) ∧
        (dispatchCtrl ctx packet r).result.reject = .unsupported ∧
        (dispatchCtrl ctx packet r).result.response = none) := by
  have hhandled := dispatchCtrl_handled ctx packet r
  generalize dispatchCtrl ctx packet r = o at hhandled ⊢
  cases hhandled with
  | ping => exact Or.inl (dispatchPing_verdict ctx packet hr)
  | timeRequest => exact Or.inl (dispatchTimeRequest_verdict ctx packet hr)
  | idRequest => exact Or.inl (dispatchIdRequest_verdict ctx packet hr)
  | dictReady => exact Or.inl (dispatchDictReady_verdict ctx packet hr)
  | channelAck => exact Or.inl (dispatchChannelAck_verdict ctx packet hr)
  | ignored => exact Or.inl (verdict_silent hr)
  | unknown =>
    refine Or.inr ⟨?_, rfl, hr.response⟩
    exact verdict_refused (r := { r with kind := .unknown }) hr.response (by decide)

/-! ## Data frames -/

theorem dispatchSession_verdict (ctx : HsDispatchCtx n) (store : SecureStore) (pm : PacketMeta)
    (hr : r.Open) : Verdict r.kind (dispatchSession ctx store pm r) := by
  simp only [dispatchSession]
  split
  · exact verdict_refused hr.response (by decide)
  · exact verdict_refused hr.response (by decide)
  · split
    · unfold dispatchPlain
      split
      · exact verdict_silent hr
      · exact verdict_answered_cons hr _ _
    · unfold dispatchSecure
      split
      · exact verdict_refused hr.response (by decide)
      · split
        · exact verdict_silent hr
        · exact verdict_answered_cons hr _ _

/-- `ok` is set behind the checks of a frame, and not before. -/
theorem dispatchData_verdict (ctx : HsDispatchCtx n) (packet : Bytes) (hreject : r.reject = .none)
    (hresponse : r.response = none) : Verdict r.kind (dispatchData ctx packet r) := by
  unfold dispatchData
  split
  · exact verdict_refused hresponse (by decide)
  · rename_i pm _
    have hopen : ({ r with sourceAid := pm.sourceAid, ok := true } : HsResult).Open :=
      ⟨rfl, hreject, hresponse⟩
    split
    · exact verdict_refused (r := { r with sourceAid := pm.sourceAid }) hresponse (by decide)
    · split
      · exact verdict_silent hopen
      · exact dispatchSession_verdict ctx _ pm hopen

/-! ## Any packet -/

/-- The commands of data frames. -/
def dataFrameCmds : List UInt8 :=
  [Cmd.dataFull, Cmd.dataFullSec, Cmd.dataDiff, Cmd.dataDiffSec, Cmd.dataHeart, Cmd.dataHeartSec]

theorem isDataCmd_normalize_iff (cmd : UInt8) :
    isDataCmd (cmdNormalizeData cmd) = true ↔ cmd ∈ dataFrameCmds := by
  have hall : ∀ k : Fin 256, isDataCmd (cmdNormalizeData (UInt8.ofNat k)) = true ↔
      UInt8.ofNat k ∈ dataFrameCmds := by
    decide +kernel
  have hcmd := hall ⟨cmd.toNat, cmd.toNat_lt⟩
  rwa [UInt8.ofNat_toNat] at hcmd

/-- What the caller can rely on. -/
structure Coherent (packet : Bytes) (o : HsOutcome n) : Prop where
  ok_iff : o.ret = true ↔ o.result.ok = true
  reject_iff : o.ret = true ↔ o.result.reject = .none
  response_iff : o.result.hasResponse = true ↔ 0 < o.result.responseLen
  response_le : o.result.responseLen ≤ hsRespMax
  data_iff : o.result.kind = .data ↔ packet.getD 0 0 ∈ dataFrameCmds
  unknown : o.result.kind = .unknown → o.result.reject = .unsupported ∧ o.result.response = none
  refused : o.ret = false → ∀ data, o.result.response = some data → data.getD 0 0 ∉ grants

/-- A verdict is coherent if its kind is right. -/
theorem Verdict.coherent {kind : HsKind} {o : HsOutcome n} (h : Verdict kind o) {packet : Bytes}
    (hdata : kind = .data ↔ packet.getD 0 0 ∈ dataFrameCmds)
    (hunknown : kind = .unknown → o.result.reject = .unsupported ∧ o.result.response = none) :
    Coherent packet o where
  ok_iff := by rw [h.ok]
  reject_iff := h.reject.symm
  response_iff := by
    unfold HsResult.hasResponse HsResult.responseLen
    cases hresponse : o.result.response with
    | none => simp
    | some data =>
      have hpos := List.length_pos_iff.mpr (h.response data hresponse).1
      simp only [Option.isSome_some, Option.getD_some, true_iff]
      exact hpos
  response_le := by
    unfold HsResult.responseLen
    cases hresponse : o.result.response with
    | none => exact Nat.zero_le _
    | some data => exact (h.response data hresponse).2
  data_iff := by rw [h.kind, hdata]
  unknown := fun hkind => hunknown (h.kind.symm.trans hkind)
  refused := h.refused

/-- Whatever the context is, the verdict on a packet is coherent. -/
theorem dispatch_coherent (ctx : HsDispatchCtx n) {packet : Bytes} (h : packet ≠ []) :
    Coherent packet (hsClassifyDispatch ctx packet) := by
  cases packet with
  | nil => exact absurd rfl h
  | cons cmd rest =>
    have hhead : (cmd :: rest).getD 0 0 = cmd := rfl
    by_cases hdata : isDataCmd (cmdNormalizeData cmd) = true
    · simp only [hsClassifyDispatch, if_pos hdata]
      refine (dispatchData_verdict ctx (cmd :: rest) rfl rfl).coherent ?_ ?_
      · rw [hhead, ← isDataCmd_normalize_iff]
        exact iff_of_true rfl hdata
      · intro hkind
        cases hkind
    · simp only [hsClassifyDispatch, if_neg hdata]
      have hcmd : cmd ∉ dataFrameCmds := fun hmem => hdata ((isDataCmd_normalize_iff cmd).mpr hmem)
      have hopen : ({ HsResult.cleared with
          cmd, baseCmd := cmdNormalizeData cmd, kind := .ctrl, ok := true } : HsResult).Open :=
        ⟨rfl, rfl, rfl⟩
      rcases dispatchCtrl_verdict ctx (cmd :: rest) hopen with hctrl | ⟨hunknown, hrefused⟩
      · refine hctrl.coherent ?_ ?_
        · have hkind : HsKind.ctrl ≠ .data := by decide
          rw [hhead]
          exact iff_of_false hkind hcmd
        · intro hkind
          cases hkind
      · have hkind : HsKind.unknown ≠ .data := by decide
        refine hunknown.coherent ?_ fun _ => hrefused
        rw [hhead]
        exact iff_of_false hkind hcmd

/-- A server with a store of sessions and a pool of ids. -/
def pooledServer : HsDispatchCtx 16 := ⟨some (secureStoreInit 60), some (.init 16 10 20 60), 1⟩

/-- A request for an id, which it answers with an assignment. -/
def leaseRequest : Bytes := [1, 0, 7]

theorem leaseRequest_coherent :
    (hsClassifyDispatch pooledServer leaseRequest).result.hasResponse = true ∧
      Coherent leaseRequest (hsClassifyDispatch pooledServer leaseRequest) :=
  ⟨by decide +kernel, dispatch_coherent pooledServer (by decide)⟩

end

end Osfx
