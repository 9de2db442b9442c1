import Osfx.Channel
import Osfx.OwnAddress
import Osfx.Verdict

/-!
# Conversations

Nodes that hand each packet they receive to `osfx_hs_classify_dispatch` and put what it
answers back on the network. Whatever the packets are, each answer belongs to the request
it answers, no answer is answered, and so the network falls silent: `conversation_ends`
bounds the number of deliveries by twice the number of packets there were at the start.
-/

namespace Osfx

open EventSystem Numeral

variable {n : Nat}

/-- The answers of a node, by the packet they answer. -/
inductive Answers (packet : Bytes) : Bytes → Prop
  | pong : packet.getD 0 0 = Cmd.ping → packet.length = 3 →
      Answers packet (Cmd.pong :: beBytes 2 (packetSeq packet).toNat)
  | time {nowTs : UInt64} : packet.getD 0 0 = Cmd.timeRequest → packet.length = 3 →
      Answers packet (Cmd.timeResponse :: beBytes 2 (packetSeq packet).toNat ++
        beBytes 8 nowTs.toNat)
  | assign {aid : UInt32} : packet.getD 0 0 = Cmd.idRequest → 3 ≤ packet.length →
      Answers packet (idAssignPacket (packetSeq packet) aid)
  | nack {reason : Bytes} : packet.getD 0 0 = Cmd.idRequest → reason ≠ [] →
      Answers packet (Cmd.handshakeNack ::
        beBytes 2 (if packet.length < 3 then 0 else packetSeq packet).toNat ++ reason)
  | dictReady {pm : PacketMeta} : dataMeta packet = some pm → Plaintext packet →
      Answers packet (readyPacket pm.sourceAid pm.timestampRaw)
  | channelAck {pm : PacketMeta} : dataMeta packet = some pm → ¬ Plaintext packet →
      Answers packet (channelAckPacket pm.sourceAid)

/-- The commands of answers. -/
def answerCmds : List UInt8 :=
  [Cmd.pong, Cmd.timeResponse, Cmd.idAssign, Cmd.handshakeNack, Cmd.secureDictReady,
    Cmd.secureChannelAck]

theorem Answers.cmd {packet answer : Bytes} (h : Answers packet answer) :
    answer.getD 0 0 ∈ answerCmds := by
  cases h with
  | pong => exact (by decide : Cmd.pong ∈ answerCmds)
  | time => exact (by decide : Cmd.timeResponse ∈ answerCmds)
  | assign => exact (by decide : Cmd.idAssign ∈ answerCmds)
  | nack => exact (by decide : Cmd.handshakeNack ∈ answerCmds)
  | dictReady => exact (by decide : Cmd.secureDictReady ∈ answerCmds)
  | channelAck => exact (by decide : Cmd.secureChannelAck ∈ answerCmds)

/-! ## What a node answers -/

section
variable {ctx : HsDispatchCtx n} {packet : Bytes} {r : HsResult} {answer : Bytes}

theorem nack_answers (hr : r.response = none) (hcmd : packet.getD 0 0 = Cmd.idRequest)
    {seq : UInt16} (hseq : seq = if packet.length < 3 then 0 else packetSeq packet)
    {reason : Bytes} (hreason : reason ≠ []) {outCap : Nat}
    (h : (r.writeResponse (buildNack seq reason outCap)).response = some answer) :
    Answers packet answer := by
  obtain ⟨hbuild, -⟩ := HsResult.writeResponse_some hr h
  simp only [buildNack, Option.ite_none_left_eq_some, Option.some.injEq] at hbuild
  obtain ⟨-, rfl⟩ := hbuild
  rw [hseq]
  exact .nack hcmd hreason

theorem dispatchIdRequest_answers (hr : r.response = none)
    (hcmd : packet.getD 0 0 = Cmd.idRequest)
    (h : (dispatchIdRequest ctx packet r).result.response = some answer) :
    Answers packet answer := by
  unfold dispatchIdRequest at h
  split at h
  · rename_i hshort
    exact nack_answers (r := r.setReject .malformed) hr hcmd (if_pos hshort).symm (by decide) h
  · rename_i hlong
    have hseq : packetSeq packet = if packet.length < 3 then 0 else packetSeq packet :=
      (if_neg hlong).symm
    split at h
    · exact nack_answers (r := r.setReject .unsupported) hr hcmd hseq (by decide) h
    · split at h
      · rw [writeResponse_idAssign] at h
        cases h
        exact .assign hcmd (Nat.not_lt.mp hlong)
      · exact nack_answers hr hcmd hseq (by decide) h

theorem dispatchPing_answers (hr : r.response = none) (hcmd : packet.getD 0 0 = Cmd.ping)
    (h : (dispatchPing ctx packet r).result.response = some answer) : Answers packet answer := by
  unfold dispatchPing at h
  split at h
  · rw [HsResult.setReject, hr] at h
    cases h
  · rename_i hlen
    cases (HsResult.writeResponse_some hr h).1
    exact .pong hcmd (not_not.mp hlen)

theorem dispatchTimeRequest_answers (hr : r.response = none)
    (hcmd : packet.getD 0 0 = Cmd.timeRequest)
    (h : (dispatchTimeRequest ctx packet r).result.response = some answer) :
    Answers packet answer := by
  unfold dispatchTimeRequest at h
  split at h
  · rw [HsResult.setReject, hr] at h
    cases h
  · rename_i hlen
    cases (HsResult.writeResponse_some hr h).1
    exact .time hcmd (not_not.mp hlen)

/-- A control packet that is an answer itself is not answered. -/
theorem dispatchDictReady_silent (hr : r.response = none) :
    (dispatchDictReady ctx packet r).result.response = none := by
  unfold dispatchDictReady
  split
  · exact hr
  · split
    · exact hr
    · exact hr

theorem dispatchChannelAck_silent (hr : r.response = none) :
    (dispatchChannelAck ctx packet r).result.response = none := by
  unfold dispatchChannelAck
  split
  · exact hr
  · split
    · exact hr
    · exact hr

theorem dispatchCtrl_answers (hr : r.response = none) (hcmd : r.cmd = packet.getD 0 0)
    (h : (dispatchCtrl ctx packet r).result.response = some answer) : Answers packet answer := by
  have hhandled := dispatchCtrl_handled ctx packet r
  generalize dispatchCtrl ctx packet r = o at hhandled h
  cases hhandled with
  | ping hping => exact dispatchPing_answers hr (hcmd.symm.trans hping) h
  | timeRequest htime => exact dispatchTimeRequest_answers hr (hcmd.symm.trans htime) h
  | idRequest hid => exact dispatchIdRequest_answers hr (hcmd.symm.trans hid) h
  | dictReady =>
    rw [dispatchDictReady_silent hr] at h
    cases h
  | channelAck =>
    rw [dispatchChannelAck_silent hr] at h
    cases h
  | ignored | unknown =>
    rw [hr] at h
    cases h

/-- Answers are taken note of, and no more. -/
theorem dispatchCtrl_silent (hr : r.response = none) (hcmd : r.cmd ∈ answerCmds) :
    (dispatchCtrl ctx packet r).result.response = none := by
  have hhandled := dispatchCtrl_handled ctx packet r
  generalize dispatchCtrl ctx packet r = o at hhandled ⊢
  cases hhandled with
  | ping hping =>
    rw [hping] at hcmd
    exact absurd hcmd (by decide)
  | timeRequest htime =>
    rw [htime] at hcmd
    exact absurd hcmd (by decide)
  | idRequest hid =>
    rw [hid] at hcmd
    exact absurd hcmd (by decide)
  | dictReady => exact dispatchDictReady_silent hr
  | channelAck => exact dispatchChannelAck_silent hr
  | ignored | unknown => exact hr

end

/-- Without a store a data frame is not answered. -/
theorem dispatchData_silent {ctx : HsDispatchCtx n} (hstore : ctx.secureStore = none)
    (packet : Bytes) {r : HsResult} (hr : r.response = none) :
    (dispatchData ctx packet r).result.response = none := by
  unfold dispatchData
  rw [hstore]
  split
  · exact hr
  · split
    · exact hr
    · exact hr

/-- A context with a store is one of the deliveries to it. -/
theorem classify_eq_dispatch (ctx : HsDispatchCtx n) (packet : Bytes) {store : SecureStore}
    (h : ctx.secureStore = some store) : hsClassifyDispatch ctx packet =
      (⟨packet, ctx.nowTs, ctx.idAllocator⟩ : Delivery n).dispatch store := by
  obtain ⟨secureStore, idAllocator, nowTs⟩ := ctx
  cases h
  rfl

theorem frame_answers (d : Delivery n) (store : SecureStore)
    (hdata : isDataCmd (cmdNormalizeData (d.packet.getD 0 0)) = true) {answer : Bytes}
    (h : (d.dispatch store).result.response = some answer) : Answers d.packet answer := by
  rcases noFrame_or_frame d.packet with hother | ⟨pm, hmeta, hcrc⟩
  · obtain ⟨r, hnone, hout⟩ := dispatch_badFrame hdata hother
    rw [hout, hnone] at h
    cases h
  · have hframe := dispatch_frame hmeta hcrc store
    generalize d.dispatch store = o at hframe h
    cases hframe with
    | late | noKey | passes => cases h
    | confirmsKey _ hplain =>
      rw [writeResponse_ready] at h
      cases h
      exact .dictReady hmeta hplain
    | confirmsChannel _ hsecure =>
      rw [writeResponse_channelAck] at h
      cases h
      exact .channelAck hmeta hsecure

/-- What a node answers belongs to the packet it answers. -/
theorem classify_answers (ctx : HsDispatchCtx n) {packet answer : Bytes}
    (h : (hsClassifyDispatch ctx packet).result.response = some answer) :
    Answers packet answer := by
  cases packet with
  | nil => cases h
  | cons cmd rest =>
    by_cases hdata : isDataCmd (cmdNormalizeData cmd) = true
    · cases hstore : ctx.secureStore with
      | none =>
        simp only [hsClassifyDispatch, if_pos hdata] at h
        rw [dispatchData_silent hstore _ rfl] at h
        cases h
      | some store =>
        rw [classify_eq_dispatch ctx _ hstore] at h
        exact frame_answers ⟨cmd :: rest, ctx.nowTs, ctx.idAllocator⟩ store hdata h
    · simp only [hsClassifyDispatch, if_neg hdata] at h
      exact dispatchCtrl_answers rfl rfl h

/-- No command of an answer is one of a data frame. -/
theorem isDataCmd_answer {cmd : UInt8} (h : cmd ∈ answerCmds) :
    isDataCmd (cmdNormalizeData cmd) = false := by
  simp only [answerCmds, List.mem_cons, List.not_mem_nil, or_false] at h
  rcases h with rfl | rfl | rfl | rfl | rfl | rfl <;> decide

/-- No node answers an answer. -/
theorem classify_silent (ctx : HsDispatchCtx n) {packet : Bytes}
    (h : packet.getD 0 0 ∈ answerCmds) :
    (hsClassifyDispatch ctx packet).result.response = none := by
  cases packet with
  | nil => rfl
  | cons cmd rest =>
    have hdata := isDataCmd_answer h
    simp only [List.getD_cons_zero] at hdata
    simp only [hsClassifyDispatch, hdata, Bool.false_eq_true, if_false]
    exact dispatchCtrl_silent rfl h

/-! ## A network of nodes -/

/-- The contexts of the nodes, the packets in flight, and which packet got which answer. -/
structure Network (n k : Nat) where
  nodes : Vector (HsDispatchCtx n) k
  inFlight : List Bytes
  answered : List (Bytes × Bytes)

/-- A packet in flight is given to a node, or lost. -/
inductive NetworkEvent (k : Nat) where
  | deliver (i : Nat) (node : Fin k) (nowTs : UInt64)
  | lose (i : Nat)

def networkStep {k : Nat} (w : Network n k) : NetworkEvent k → Option (Network n k)
  | .deliver i node nowTs => do
    let packet ← w.inFlight[i]?
    let o := hsClassifyDispatch { w.nodes.get node with nowTs } packet
    some {
      nodes := w.nodes.set node o.ctx node.isLt
      inFlight := w.inFlight.eraseIdx i ++ o.result.response.toList
      answered := w.answered ++ o.result.response.toList.map fun answer => (packet, answer) }
  | .lose i =>
    if i < w.inFlight.length then some { w with inFlight := w.inFlight.eraseIdx i } else none

/-- A packet that may be answered counts for itself and for its answer. -/
def packetWeight (packet : Bytes) : Nat := if packet.getD 0 0 ∈ answerCmds then 1 else 2

theorem packetWeight_bounds (packet : Bytes) :
    1 ≤ packetWeight packet ∧ packetWeight packet ≤ 2 := by
  unfold packetWeight
  split <;> decide

theorem weight_bounds (packets : List Bytes) :
    packets.length ≤ (packets.map packetWeight).sum ∧
      (packets.map packetWeight).sum ≤ 2 * packets.length := by
  induction packets with
  | nil => exact ⟨Nat.le_refl _, Nat.le_refl _⟩
  | cons packet rest ih =>
    have hpacket := packetWeight_bounds packet
    simp only [List.map_cons, List.sum_cons, List.length_cons]
    omega

def Network.weight {k : Nat} (w : Network n k) : Nat := (w.inFlight.map packetWeight).sum

/-- Each answer belongs to its request, and the requests are no answers. -/
def Network.Ordered {k : Nat} (w : Network n k) : Prop :=
  ∀ x ∈ w.answered, Answers x.1 x.2 ∧ x.1.getD 0 0 ∉ answerCmds

section
variable {k : Nat} {w w' : Network n k}

theorem weight_eraseIdx {packets : List Bytes} {i : Nat} {packet : Bytes}
    (h : packets[i]? = some packet) :
    packetWeight packet + ((packets.eraseIdx i).map packetWeight).sum =
      (packets.map packetWeight).sum := by
  induction packets generalizing i with
  | nil => cases h
  | cons first rest ih =>
    cases i with
    | zero =>
      cases h
      rfl
    | succ i =>
      have hrest := ih h
      simp only [List.eraseIdx_cons_succ, List.map_cons, List.sum_cons]
      omega

/-- An answer weighs less than the packet it answers. -/
theorem weight_answer (ctx : HsDispatchCtx n) (packet : Bytes) :
    ((hsClassifyDispatch ctx packet).result.response.toList.map packetWeight).sum <
      packetWeight packet := by
  by_cases hcmd : packet.getD 0 0 ∈ answerCmds
  · rw [classify_silent ctx hcmd, packetWeight, if_pos hcmd]
    exact Nat.zero_lt_one
  · rw [packetWeight, if_neg hcmd]
    cases hanswer : (hsClassifyDispatch ctx packet).result.response with
    | none => exact Nat.zero_lt_two
    | some answer =>
      have hlight : packetWeight answer = 1 := if_pos (classify_answers ctx hanswer).cmd
      simp only [Option.toList_some, List.map_cons, List.map_nil, List.sum_cons, List.sum_nil,
        hlight]
      decide

theorem networkStep_weight (w : Network n k) (e : NetworkEvent k) (w' : Network n k)
    (h : networkStep w e = some w') : w'.weight < w.weight := by
  cases e with
  | deliver i node nowTs =>
    obtain ⟨packet, hpacket, h⟩ := Option.bind_eq_some_iff.mp h
    cases h
    have hanswer := weight_answer { w.nodes.get node with nowTs } packet
    have herased := weight_eraseIdx hpacket
    simp only [Network.weight, List.map_append, List.sum_append]
    simp only at hanswer
    omega
  | lose i =>
    simp only [networkStep, Option.ite_none_right_eq_some, Option.some.injEq] at h
    obtain ⟨hi, rfl⟩ := h
    have herased := weight_eraseIdx (List.getElem?_eq_getElem hi)
    have hpos := (packetWeight_bounds w.inFlight[i]).1
    simp only [Network.weight]
    omega

theorem networkStep_ordered (w : Network n k) (e : NetworkEvent k) (w' : Network n k)
    (hordered : w.Ordered) (h : networkStep w e = some w') : w'.Ordered := by
  cases e with
  | deliver i node nowTs =>
    obtain ⟨packet, hpacket, h⟩ := Option.bind_eq_some_iff.mp h
    cases h
    intro x hx
    rcases List.mem_append.mp hx with hx | hx
    · exact hordered x hx
    · obtain ⟨answer, hanswer, rfl⟩ := List.mem_map.mp hx
      have hresponse := Option.mem_toList.mp hanswer
      refine ⟨classify_answers _ hresponse, fun hcmd => ?_⟩
      rw [classify_silent _ hcmd] at hresponse
      cases hresponse
  | lose i =>
    simp only [networkStep, Option.ite_none_right_eq_some, Option.some.injEq] at h
    obtain ⟨-, rfl⟩ := h
    exact hordered

/-- However the packets of a network are delivered, the deliveries end: there are at most
two for each packet at the start. Each answer belongs to its request, and no answer was
answered. -/
theorem conversation_ends {nodes : Vector (HsDispatchCtx n) k} {packets : List Bytes}
    {es : List (NetworkEvent k)} (hrun : run networkStep ⟨nodes, packets, []⟩ es = some w) :
    es.length + w.inFlight.length ≤ 2 * packets.length ∧ w.Ordered := by
  have hlength := run_length_le networkStep networkStep_weight hrun
  have hstart := weight_bounds packets
  have hend := weight_bounds w.inFlight
  refine ⟨?_, run_invariant networkStep networkStep_ordered
    (fun x hx => (List.not_mem_nil hx).elim) hrun⟩
  simp only [Network.weight] at hlength
  omega

/-- A node and a gateway, with a ping, a time request and a frame in the clear. -/
def threeRequests : List Bytes :=
  [[Cmd.ping, 0, 7], [Cmd.timeRequest, 0, 8], (frameAt 9).packet]

/-- Every request is answered by the gateway, and every answer taken by the node. -/
def askedAndAnswered : List (NetworkEvent 2) :=
  [.deliver 0 1 50, .deliver 0 1 50, .deliver 0 1 50, .deliver 0 0 51, .deliver 0 0 51,
    .deliver 0 0 51]

def twoNodes : Vector (HsDispatchCtx 16) 2 :=
  Vector.replicate 2 ⟨some (secureStoreInit 60), none, 0⟩

theorem three_requests_end :
    ∃ w, run networkStep ⟨twoNodes, threeRequests, []⟩ askedAndAnswered = some w ∧
      askedAndAnswered.length + w.inFlight.length ≤ 2 * threeRequests.length ∧ w.Ordered := by
  have hsome : (run networkStep ⟨twoNodes, threeRequests, []⟩ askedAndAnswered).isSome = true := by
    decide +kernel
  obtain ⟨w, hrun⟩ := Option.isSome_iff_exists.mp hsome
  exact ⟨w, hrun, conversation_ends hrun⟩

end

end Osfx
