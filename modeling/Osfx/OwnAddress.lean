import Osfx.Glue
import Osfx.IdPool

/-!
# The address of a gateway

A gateway answers ID_REQUEST packets out of its own pool, and its own address is an id
like any other there: `osfx_glue_init` does not take it out of the pool, and a `local_aid`
that is left 0 even becomes the first id of it. `own_address_kept_iff` says for which
configurations the address is out of reach of the allocator.
-/

namespace Osfx

open Numeral IdAllocator

variable {n : Nat}

/-- The id an ID_ASSIGN carries. -/
def assignedId (answer : Bytes) : UInt32 := UInt32.ofNat (beNat (slice answer 3 4))

/-- The response is an ID_ASSIGN of the id. -/
def Assigns (response : Option Bytes) (aid : UInt32) : Prop :=
  ∃ answer, response = some answer ∧ answer.getD 0 0 = Cmd.idAssign ∧ assignedId answer = aid

def idAssignPacket (seq : UInt16) (aid : UInt32) : Bytes :=
  Cmd.idAssign :: beBytes 2 seq.toNat ++ beBytes 4 aid.toNat

theorem idAssignPacket_id (seq : UInt16) (aid : UInt32) :
    assignedId (idAssignPacket seq aid) = aid := by
  have hslice : slice (idAssignPacket seq aid) 3 4 = beBytes 4 aid.toNat := by
    have happ : idAssignPacket seq aid =
        (Cmd.idAssign :: beBytes 2 seq.toNat) ++ beBytes 4 aid.toNat ++ [] := by
      simp [idAssignPacket]
    rw [happ]
    exact slice_append _ _ _ (by simp) (by simp)
  rw [assignedId, hslice, u32_beBytes]

theorem assigns_idAssignPacket (seq : UInt16) (aid : UInt32) :
    Assigns (some (idAssignPacket seq aid)) aid :=
  ⟨_, rfl, rfl, idAssignPacket_id seq aid⟩

theorem assigns_some {seq : UInt16} {aid k : UInt32}
    (h : Assigns (some (idAssignPacket seq aid)) k) : k = aid := by
  obtain ⟨answer, hanswer, -, hid⟩ := h
  cases hanswer
  rw [← hid, idAssignPacket_id]

theorem not_assigns_none (aid : UInt32) : ¬ Assigns none aid := by
  rintro ⟨answer, hanswer, -⟩
  cases hanswer

/-- What a packet does with the allocator: nothing, and then it is not answered ID_ASSIGN,
or one call of `osfx_id_allocate`, and then the id of an ID_ASSIGN is the one granted. -/
inductive IdOutcome (alloc : IdAllocator n) (nowTs : UInt64) : HsOutcome n → Prop
  | keeps {o : HsOutcome n} : o.ctx.idAllocator = some alloc →
      (∀ aid, ¬ Assigns o.result.response aid) → IdOutcome alloc nowTs o
  | allocates {o : HsOutcome n} : o.ctx.idAllocator = some (alloc.allocate nowTs).1 →
      (∀ aid, Assigns o.result.response aid ↔ (alloc.allocate nowTs).2 = some aid) →
      IdOutcome alloc nowTs o

section
variable {alloc : IdAllocator n} {nowTs : UInt64} {ctx : HsDispatchCtx n} {packet : Bytes}
  {r : HsResult}

theorem writeResponse_idAssign (r : HsResult) (seq : UInt16) (aid : UInt32) :
    (r.writeResponse (buildIdAssign seq aid 16)).response = some (idAssignPacket seq aid) := by
  have hbuild : buildIdAssign seq aid 16 = some (idAssignPacket seq aid) := if_neg (by decide)
  have hfits : ¬ (idAssignPacket seq aid).length > hsRespMax := by
    simp [idAssignPacket, hsRespMax]
  rw [hbuild, HsResult.writeResponse, if_neg hfits]

/-- An answer that is no ID_ASSIGN. -/
theorem not_assigns_writeResponse (hr : r.response = none) {data : Option Bytes}
    (hdata : ∀ answer, data = some answer → answer.getD 0 0 ≠ Cmd.idAssign) (aid : UInt32) :
    ¬ Assigns (r.writeResponse data).response aid := by
  rintro ⟨answer, hanswer, hhead, -⟩
  cases data with
  | none =>
    rw [HsResult.writeResponse, hr] at hanswer
    cases hanswer
  | some bytes =>
    rw [HsResult.writeResponse] at hanswer
    split at hanswer
    · rw [hr] at hanswer
      cases hanswer
    · cases hanswer
      exact hdata answer rfl hhead

theorem buildNack_head (seq : UInt16) (reason : Bytes) (outCap : Nat) :
    ∀ answer, buildNack seq reason outCap = some answer → answer.getD 0 0 ≠ Cmd.idAssign := by
  intro answer h
  unfold buildNack at h
  split at h
  · cases h
  · cases h
    exact (by decide : Cmd.handshakeNack ≠ Cmd.idAssign)

theorem dispatchIdRequest_id (halloc : ctx.idAllocator = some alloc) (hr : r.response = none) :
    IdOutcome alloc ctx.nowTs (dispatchIdRequest ctx packet r) := by
  simp only [dispatchIdRequest, halloc]
  split
  · refine .keeps halloc fun aid => ?_
    exact not_assigns_writeResponse (r := r.setReject .malformed) hr (buildNack_head _ _ _) aid
  · cases hg : alloc.allocate ctx.nowTs with
    | mk alloc' out =>
      cases out with
      | some aid =>
        refine .allocates (by rw [hg]) fun k => ?_
        rw [writeResponse_idAssign, hg]
        refine ⟨fun h => congrArg some (assigns_some h).symm, fun h => ?_⟩
        cases h
        exact assigns_idAssignPacket _ _
      | none =>
        refine .allocates (by rw [hg]) fun k => ?_
        rw [hg]
        refine ⟨fun h => ?_, fun h => by cases h⟩
        exact absurd h (not_assigns_writeResponse hr (buildNack_head _ _ _) k)

theorem dispatchCtrl_id (halloc : ctx.idAllocator = some alloc) (hr : r.response = none) :
    IdOutcome alloc ctx.nowTs (dispatchCtrl ctx packet r) := by
  have hsilent : ∀ aid, ¬ Assigns r.response aid := by
    intro aid
    rw [hr]
    exact not_assigns_none aid
  have hhandled := dispatchCtrl_handled ctx packet r
  generalize dispatchCtrl ctx packet r = o at hhandled ⊢
  cases hhandled with
  | ping =>
    unfold dispatchPing
    split
    · exact .keeps halloc hsilent
    · refine .keeps halloc (not_assigns_writeResponse hr fun answer h => ?_)
      cases h
      exact (by decide : Cmd.pong ≠ Cmd.idAssign)
  | timeRequest =>
    unfold dispatchTimeRequest
    split
    · exact .keeps halloc hsilent
    · refine .keeps halloc (not_assigns_writeResponse hr fun answer h => ?_)
      cases h
      exact (by decide : Cmd.timeResponse ≠ Cmd.idAssign)
  | idRequest => exact dispatchIdRequest_id halloc hr
  | dictReady =>
    unfold dispatchDictReady
    split
    · exact .keeps halloc hsilent
    split
    · exact .keeps halloc hsilent
    · exact .keeps halloc hsilent
  | channelAck =>
    unfold dispatchChannelAck
    split
    · exact .keeps halloc hsilent
    split
    · exact .keeps halloc hsilent
    · exact .keeps halloc hsilent
  | ignored | unknown => exact .keeps halloc hsilent

end

theorem dispatch_id {d : Delivery n} {alloc : IdAllocator n} (halloc : d.idAllocator = some alloc)
    (store : SecureStore) : IdOutcome alloc d.nowTs (d.dispatch store) := by
  by_cases hdata : isDataCmd (cmdNormalizeData (d.packet.getD 0 0)) = true
  · rcases noFrame_or_frame d.packet with hother | ⟨pm, hmeta, hcrc⟩
    · obtain ⟨r, hr, hout⟩ := dispatch_badFrame hdata hother
      rw [hout]
      refine .keeps halloc fun aid => ?_
      rw [hr]
      exact not_assigns_none aid
    · have hframe := dispatch_frame hmeta hcrc store
      generalize d.dispatch store = o at hframe ⊢
      cases hframe with
      | late | noKey | passes => exact .keeps halloc not_assigns_none
      | confirmsKey =>
        refine .keeps halloc (not_assigns_writeResponse rfl fun answer h => ?_)
        cases h
        exact (by decide : Cmd.secureDictReady ≠ Cmd.idAssign)
      | confirmsChannel =>
        refine .keeps halloc (not_assigns_writeResponse rfl fun answer h => ?_)
        cases h
        exact (by decide : Cmd.secureChannelAck ≠ Cmd.idAssign)
  · obtain ⟨packet, nowTs, alloc'⟩ := d
    cases packet with
    | nil => exact .keeps halloc not_assigns_none
    | cons cmd rest =>
      rw [List.getD_cons_zero] at hdata
      simp only [Delivery.dispatch, hsClassifyDispatch, if_neg hdata]
      have hctx : (Delivery.ctx ⟨cmd :: rest, nowTs, alloc'⟩ store).idAllocator = some alloc :=
        halloc
      exact dispatchCtrl_id hctx rfl

/-! ## Runs -/

/-- The response of a call, if it fills in a result. -/
def GlueOutcome.response (o : GlueOutcome n) : Option Bytes := o.result.bind fun r => r.response

theorem process_keeps (ctx : GlueCtx n) (packet : Bytes) (nowTs : UInt64) :
    (glueProcessPacket ctx packet nowTs).ctx.localAid = ctx.localAid ∧
      SamePool ctx.idAllocator (glueProcessPacket ctx packet nowTs).ctx.idAllocator ∧
      ∀ aid, Assigns (glueProcessPacket ctx packet nowTs).response aid →
        (ctx.idAllocator.allocate nowTs).2 = some aid := by
  by_cases hne : packet = []
  · rw [glueProcessPacket, if_pos hne]
    exact ⟨rfl, .refl _, fun aid h => absurd h (not_assigns_none aid)⟩
  · have hout : IdOutcome ctx.idAllocator nowTs
        (hsClassifyDispatch ⟨some ctx.secureStore, some ctx.idAllocator, nowTs⟩ packet) :=
      dispatch_id (d := ctx.delivery packet nowTs) rfl ctx.secureStore
    rw [glueProcessPacket, if_neg hne]
    generalize hsClassifyDispatch ⟨some ctx.secureStore, some ctx.idAllocator, nowTs⟩ packet = o
      at hout ⊢
    cases hout with
    | keeps halloc hsilent =>
      refine ⟨rfl, ?_, fun aid h => absurd h (hsilent aid)⟩
      simp only [halloc, Option.getD_some]
      exact .refl _
    | allocates halloc hassigns =>
      refine ⟨rfl, ?_, fun aid h => (hassigns aid).mp h⟩
      simp only [halloc, Option.getD_some]
      exact samePool_allocate _ _

theorem glueRun_keeps (ctx : GlueCtx n) (ps : List GluePacket) :
    (glueRun ctx ps).localAid = ctx.localAid ∧
      SamePool ctx.idAllocator (glueRun ctx ps).idAllocator := by
  induction ps generalizing ctx with
  | nil => exact ⟨rfl, .refl _⟩
  | cons p ps ih =>
    obtain ⟨haid, hpool, -⟩ := process_keeps ctx p.1 p.2
    obtain ⟨haid', hpool'⟩ := ih (glueProcessPacket ctx p.1 p.2).ctx
    exact ⟨haid'.trans haid, hpool.trans hpool'⟩

/-- An ID_REQUEST. -/
def idRequestPacket : Bytes := [Cmd.idRequest, 0, 0]

theorem process_idRequest (ctx : GlueCtx n) (nowTs : UInt64) :
    (glueProcessPacket ctx idRequestPacket nowTs).ctx.idAllocator =
        (ctx.idAllocator.allocate nowTs).1 ∧
      ∀ aid, (ctx.idAllocator.allocate nowTs).2 = some aid →
        Assigns (glueProcessPacket ctx idRequestPacket nowTs).response aid := by
  have hctrl : hsClassifyDispatch ⟨some ctx.secureStore, some ctx.idAllocator, nowTs⟩
      idRequestPacket = dispatchIdRequest ⟨some ctx.secureStore, some ctx.idAllocator, nowTs⟩
        idRequestPacket ⟨.ctrl, Cmd.idRequest, Cmd.idRequest, 0, true, .none, .none⟩ := rfl
  have hlen : ¬ idRequestPacket.length < 3 := by decide
  rw [glueProcessPacket, if_neg (by decide), hctrl]
  simp only [dispatchIdRequest, if_neg hlen]
  cases hg : ctx.idAllocator.allocate nowTs with
  | mk alloc out =>
    cases out with
    | none =>
      refine ⟨rfl, fun aid h => ?_⟩
      cases h
    | some aid =>
      refine ⟨rfl, fun k h => ?_⟩
      cases h
      simp only [GlueOutcome.response, Option.bind_some, writeResponse_idAssign]
      exact assigns_idAssignPacket _ _

theorem glueRun_idRequests (ctx : GlueCtx n) (j : Nat) :
    (glueRun ctx (List.replicate j (idRequestPacket, 0))).idAllocator =
      ctx.idAllocator.drained j := by
  induction j with
  | zero => rfl
  | succ j ih =>
    rw [List.replicate_succ', glueRun, List.foldl_append, ← glueRun]
    rw [drained, ← ih]
    exact (process_idRequest _ 0).1

/-- The pool of a completed configuration is not empty. -/
theorem glueConfig_range (cfg : Option GlueConfig) :
    (glueConfig cfg).idStart ≤ (glueConfig cfg).idEnd := by
  cases cfg with
  | none => exact (by decide : glueDefaultConfig.idStart ≤ glueDefaultConfig.idEnd)
  | some cfg =>
    simp only [glueConfig, Option.map_some, Option.getD_some, GlueConfig.completed]
    split
    · split
      · exact UInt32.le_refl _
      · rename_i h
        exact UInt32.not_lt.mp h
    · split
      · exact UInt32.le_refl _
      · rename_i h
        exact UInt32.not_lt.mp h

/-- In no run of packets an ID_ASSIGN carries the address of the gateway exactly if its
allocator cannot grant it. -/
theorem own_address_kept_iff (cfg : Option GlueConfig) :
    (∀ (ps : List GluePacket) (packet : Bytes) (nowTs : UInt64),
      ¬ Assigns (glueProcessPacket (glueRun (glueInit n cfg) ps) packet nowTs).response
        (glueRun (glueInit n cfg) ps).localAid) ↔
      ¬ (glueInit n cfg).idAllocator.Grantable (glueInit n cfg).localAid := by
  constructor
  · intro h hg
    have hfilled : (glueInit n cfg).idAllocator.Filled 0 := filled_init n _ _ _
    have hgrant := granted_of_grantable hfilled hg (glueConfig_range cfg)
    generalize ((glueInit n cfg).localAid - (glueInit n cfg).idAllocator.startId).toNat = j
      at hgrant
    rw [← glueRun_idRequests] at hgrant
    apply h (List.replicate j (idRequestPacket, 0)) idRequestPacket 0
    rw [(glueRun_keeps _ _).1]
    exact (process_idRequest _ 0).2 _ hgrant
  · intro hg ps packet nowTs hassigns
    obtain ⟨haid, hpool⟩ := glueRun_keeps (glueInit n cfg) ps
    rw [haid] at hassigns
    apply hg
    apply (hpool.grantable _).mp
    have hgrant := (process_keeps _ packet nowTs).2.2 _ hassigns
    exact grantable_of_granted (Prod.ext rfl hgrant)

/-- The address that a configuration leaves open is the first id of its pool. -/
theorem open_address_assigned :
    (glueInit 16 (some ⟨0, 100, 200, 60, 60⟩)).localAid = 100 ∧
      (glueProcessPacket (glueInit 16 (some ⟨0, 100, 200, 60, 60⟩)) idRequestPacket 1).response =
        some (idAssignPacket 0 100) := by
  constructor
  · decide +kernel
  · decide +kernel

end Osfx
