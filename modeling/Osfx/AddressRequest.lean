import Osfx.Allocation
import Osfx.HandshakeParse
import Osfx.OwnAddress

/-!
# Address requests

An ID_REQUEST is answered with the id `osfx_id_allocate` finds. Where it finds none, the
text of the NACK is too long for the 16 bytes of the buffer it is built in, and nothing is
answered: `address_request_answered_iff` says for which allocators there is an answer.
-/

namespace Osfx

open Numeral IdAllocator SlotTable

variable {n : Nat}

/-- An ID_REQUEST with its sequence number. -/
def IsIdRequest (packet : Bytes) : Prop :=
  packet.getD 0 0 = Cmd.idRequest ∧ 3 ≤ packet.length

/-- The answer to an ID_REQUEST: an ID_ASSIGN that is read back, of an id that has an entry
now, or, where none is granted, a NACK with a reason, and no entry is new. -/
inductive Answered (alloc : IdAllocator n) (nowTs : UInt64) (packet : Bytes) :
    HsOutcome n → Prop
  | assigned {o : HsOutcome n} {response : Bytes} {aid : UInt32} {alloc' : IdAllocator n} :
      (alloc.allocate nowTs).2 ≠ none → o.result.response = some response →
      parseIdAssign response = some ⟨packetSeq packet, aid, 0⟩ →
      o.ctx.idAllocator = some alloc' → alloc'.findEntry aid ≠ none →
      Answered alloc nowTs packet o
  | refused {o : HsOutcome n} {reason : Bytes} {alloc' : IdAllocator n} :
      (alloc.allocate nowTs).2 = none →
      o.result.response = some (Cmd.handshakeNack :: beBytes 2 (packetSeq packet).toNat ++ reason) →
      reason ≠ [] → o.ctx.idAllocator = some alloc' →
      (∀ i, (alloc'.entries.get i).inUse = true →
        alloc'.entries.get i = alloc.entries.get i) →
      Answered alloc nowTs packet o

/-- An id the loop comes to is not leased, and not every slot holds a lease. -/
def IdAllocator.CanGrant (alloc : IdAllocator n) (nowTs : UInt64) : Prop :=
  alloc.startId ≤ alloc.endId ∧ alloc.liveCount nowTs < n ∧
    ∃ aid, alloc.Reaches aid ∧ ¬ alloc.Leased aid nowTs

/-- What the dispatch makes of an ID_REQUEST. -/
theorem dispatch_idRequest {ctx : HsDispatchCtx n} {alloc : IdAllocator n} {packet : Bytes}
    (h : IsIdRequest packet) (halloc : ctx.idAllocator = some alloc) :
    ∃ r : HsResult, r.response = none ∧ hsClassifyDispatch ctx packet =
      match alloc.allocate ctx.nowTs with
      | (alloc, some aid) =>
        ⟨true, r.writeResponse (buildIdAssign (packetSeq packet) aid 16),
          { ctx with idAllocator := alloc }⟩
      | (alloc, none) => ⟨true, r, { ctx with idAllocator := alloc }⟩ := by
  obtain ⟨hcmd, hlen⟩ := h
  cases packet with
  | nil => cases hcmd
  | cons cmd rest =>
    obtain rfl : cmd = Cmd.idRequest := hcmd
    refine ⟨⟨.ctrl, Cmd.idRequest, Cmd.idRequest, 0, true, .none, none⟩, rfl, ?_⟩
    have hshort : ¬ (Cmd.idRequest :: rest).length < 3 := Nat.not_lt.mpr hlen
    have hlong : ∀ seq, buildNack seq (ascii "ID_POOL_EXHAUSTED") 16 = none :=
      fun _ => if_pos (Or.inr (by decide))
    have hhandler : hsClassifyDispatch ctx (Cmd.idRequest :: rest) =
        dispatchIdRequest ctx (Cmd.idRequest :: rest)
          ⟨.ctrl, Cmd.idRequest, Cmd.idRequest, 0, true, .none, none⟩ := rfl
    rw [hhandler]
    simp only [dispatchIdRequest, if_neg hshort, halloc, hlong]
    rfl

/-- An ID_REQUEST that is dispatched with an allocator is answered exactly if an id can be
granted. -/
theorem address_request_answered_iff {ctx : HsDispatchCtx n} {alloc : IdAllocator n}
    {packet : Bytes} (h : IsIdRequest packet) (halloc : ctx.idAllocator = some alloc) :
    Answered alloc ctx.nowTs packet (hsClassifyDispatch ctx packet) ↔
      alloc.CanGrant ctx.nowTs := by
  obtain ⟨r, hr, hdispatch⟩ := dispatch_idRequest h halloc
  rw [IdAllocator.CanGrant, ← allocate_isSome_iff, hdispatch]
  cases hcall : alloc.allocate ctx.nowTs with
  | mk alloc' out =>
    cases out with
    | none =>
      simp only [Option.isSome_none, Bool.false_eq_true, iff_false]
      intro hanswered
      cases hanswered with
      | assigned _ hresponse =>
        rw [hr] at hresponse
        cases hresponse
      | refused _ hresponse =>
        rw [hr] at hresponse
        cases hresponse
    | some aid =>
      simp only [Option.isSome_some, iff_true]
      obtain ⟨-, i, -, hentries⟩ := allocate_granted hcall
      have hbuild : buildIdAssign (packetSeq packet) aid 16 =
          some (idAssignPacket (packetSeq packet) aid) := rfl
      refine .assigned (by simp [hcall]) (writeResponse_idAssign r _ aid)
        (parseIdAssign_build hbuild) rfl fun hnone => ?_
      refine lookup_none.mp hnone i ?_ ?_
      · rw [hentries, get_set_self]
      · rw [hentries, get_set_self]

/-- A pool of the one id 10, and it is leased. -/
def leasedOut : IdAllocator 16 := ((init 16 10 10 60).allocate 1).1

/-- The ID_REQUEST of the sequence number 7. -/
def requestPacket : Bytes := [Cmd.idRequest, 0, 7]

theorem request_leasedOut_iff :
    Answered leasedOut 2 requestPacket
        (hsClassifyDispatch ⟨none, some leasedOut, 2⟩ requestPacket) ↔ leasedOut.CanGrant 2 := by
  have hrequest : IsIdRequest requestPacket := ⟨by decide, by decide⟩
  have halloc : (⟨none, some leasedOut, 2⟩ : HsDispatchCtx 16).idAllocator = some leasedOut := rfl
  exact address_request_answered_iff hrequest halloc

/-- The call returns 1 without a response. -/
theorem request_leasedOut_unanswered :
    (leasedOut.allocate 2).2 = none ∧
    (hsClassifyDispatch ⟨none, some leasedOut, 2⟩ requestPacket).ret = true ∧
    (hsClassifyDispatch ⟨none, some leasedOut, 2⟩ requestPacket).result.response = none ∧
    ¬ Answered leasedOut 2 requestPacket
      (hsClassifyDispatch ⟨none, some leasedOut, 2⟩ requestPacket) := by
  have hnone : (hsClassifyDispatch ⟨none, some leasedOut, 2⟩ requestPacket).result.response =
      none := by
    decide +kernel
  refine ⟨by decide +kernel, by decide +kernel, hnone, fun hanswered => ?_⟩
  cases hanswered with
  | assigned _ hresponse | refused _ hresponse =>
    rw [hnone] at hresponse
    cases hresponse

end Osfx
