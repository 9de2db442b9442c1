import Osfx.ProtocolMatrix
import Osfx.Transporter

/-!
# Dispatch over the protocol matrix

`osfx_protocol_matrix_register_defaults` and `osfx_protocol_dispatch_auto`: the four links
are the drivers of the transporter, and what their callbacks return hangs on what has been
emitted before. `dispatchAutoOn` carries the matrix through the loops of the dispatch and is
the dispatch of the transporter with the outcomes it meets (`dispatchAutoOn_eq`).
`default_dispatch` says what is on the links afterwards: the beginnings of the frames of the
links that failed, and all frames of the link that is named.
-/

namespace Osfx

open Attempts EventSystem Reassembly

/-! ## A dispatch whose callbacks change a state -/

section
variable {F S : Type} (call : F → S → Bool × S) (rt : TransporterRuntime F)

/-- The call of the callback of a driver. -/
def callDriver (i : Fin transporterMax) (s : S) : Bool × S :=
  match (rt.get i).sendFn with
  | none => (false, s)
  | some fn => call fn s

/-- The retry loop of one driver. -/
def trySendOn (i : Fin transporterMax) (s : S) : Bool × S :=
  perform (callDriver call rt) (List.replicate (rt.get i).tries i) s

/-- The return value, the name written to `out_used_name`, and the state afterwards. -/
structure Dispatched (S : Type) where
  ret : Bool
  usedName : Option Bytes
  state : S

/-- The loop over the drivers other than the best one. -/
def tryOthersOn (outUsedNameCap : Nat) (best : Fin transporterMax) :
    List (Fin transporterMax) → S → Dispatched S
  | [], s => ⟨false, none, s⟩
  | i :: slots, s =>
    if i = best ∨ (rt.get i).ready = false then tryOthersOn outUsedNameCap best slots s
    else
      match trySendOn call rt i s with
      | (true, t) => ⟨true, copyName outUsedNameCap (rt.get i).name, t⟩
      | (false, t) => tryOthersOn outUsedNameCap best slots t

/-- `osfx_transporter_dispatch_auto` on callbacks that change a state. -/
def dispatchAutoOn (outUsedNameCap : Nat) (s : S) : Dispatched S :=
  match (pickBest rt).1 with
  | none => ⟨false, none, s⟩
  | some best =>
    match trySendOn call rt best s with
    | (true, t) => ⟨true, copyName outUsedNameCap (rt.get best).name, t⟩
    | (false, t) => tryOthersOn call rt outUsedNameCap best (List.finRange transporterMax) t

variable {call rt}

/-- What a dispatch with this plan does: all attempts fail, or all in front of the one that
gives the name. -/
inductive PlanDone (call : F → S → Bool × S) (rt : TransporterRuntime F) (cap : Nat)
    (plan : List (Fin transporterMax)) (s : S) : Dispatched S → Prop
  | failed {t : S} : Failing (callDriver call rt) plan s t →
      PlanDone call rt cap plan s ⟨false, none, t⟩
  | sent {done rest : List (Fin transporterMax)} {i : Fin transporterMax} {u t : S} :
      plan = done ++ i :: rest → Failing (callDriver call rt) done s u →
      callDriver call rt i u = (true, t) →
      PlanDone call rt cap plan s ⟨true, copyName cap (rt.get i).name, t⟩

/-- A plan that begins with the tries of a driver that fails. -/
theorem PlanDone.behind {cap : Nat} {first plan : List (Fin transporterMax)} {s t : S}
    {d : Dispatched S} (hfirst : Failing (callDriver call rt) first s t)
    (h : PlanDone call rt cap plan t d) : PlanDone call rt cap (first ++ plan) s d := by
  cases h with
  | failed hall => exact .failed (hfirst.append hall)
  | sent hplan hdone hcall =>
    rw [hplan, ← List.append_assoc]
    exact .sent rfl (hfirst.append hdone) hcall

/-- The tries of a driver are a plan of its own, with more behind them. -/
theorem planDone_trySend {cap : Nat} {i : Fin transporterMax} {s t : S}
    (h : trySendOn call rt i s = (true, t)) (plan : List (Fin transporterMax)) :
    PlanDone call rt cap (List.replicate (rt.get i).tries i ++ plan) s
      ⟨true, copyName cap (rt.get i).name, t⟩ := by
  obtain ⟨done, j, rest, u, hsplit, hdone, hcall⟩ := perform_true.mp h
  have hj : j = i := by
    have hmem : j ∈ List.replicate (rt.get i).tries i := by
      rw [hsplit]
      exact List.mem_append_right _ List.mem_cons_self
    exact List.eq_of_mem_replicate hmem
  subst hj
  rw [hsplit, List.append_assoc, List.cons_append]
  exact .sent rfl hdone hcall

theorem tryOthersOn_done (cap : Nat) (best : Fin transporterMax)
    (slots : List (Fin transporterMax)) (s : S) :
    PlanDone call rt cap (planOf rt (otherReady rt best slots)) s
      (tryOthersOn call rt cap best slots s) := by
  induction slots generalizing s with
  | nil => exact .failed .nil
  | cons i slots ih =>
    rw [tryOthersOn]
    by_cases hskip : i = best ∨ (rt.get i).ready = false
    · have hfilter : otherReady rt best (i :: slots) = otherReady rt best slots := by
        rw [otherReady, List.filter_cons_of_neg]
        · rfl
        · rcases hskip with h | h <;> simp [h]
      rw [if_pos hskip, hfilter]
      exact ih s
    · have hfilter : otherReady rt best (i :: slots) = i :: otherReady rt best slots := by
        rw [not_or, Bool.not_eq_false] at hskip
        rw [otherReady, List.filter_cons_of_pos]
        · rfl
        · simp [hskip]
      rw [if_neg hskip, hfilter, planOf, List.flatMap_cons, ← planOf]
      cases hsent : trySendOn call rt i s with
      | mk ret t =>
        cases ret with
        | true => exact planDone_trySend hsent _
        | false => exact (ih t).behind (perform_false.mp hsent)

theorem dispatchAutoOn_done (call : F → S → Bool × S) (rt : TransporterRuntime F) (cap : Nat)
    (s : S) : PlanDone call rt cap (planOf rt (dispatchOrder rt)) s
      (dispatchAutoOn call rt cap s) := by
  unfold dispatchAutoOn dispatchOrder
  cases (pickBest rt).1 with
  | none => exact .failed .nil
  | some best =>
    simp only
    rw [planOf, List.flatMap_cons, ← planOf]
    cases hsent : trySendOn call rt best s with
    | mk ret t =>
      cases ret with
      | true => exact planDone_trySend hsent _
      | false => exact (tryOthersOn_done cap best _ t).behind (perform_false.mp hsent)

/-- It returns and reports what the dispatch of the transporter does with the outcomes it
meets. -/
theorem dispatchAutoOn_eq (call : F → S → Bool × S) (rt : TransporterRuntime F) (cap : Nat)
    (s : S) : ∃ outcomes : Nat → Bool,
      (dispatchAutoOn call rt cap s).ret = (transporterDispatchAuto outcomes rt cap).ret ∧
      ((dispatchAutoOn call rt cap s).ret = true → (dispatchAutoOn call rt cap s).usedName =
        (transporterDispatchAuto outcomes rt cap).usedName) := by
  let outcomes := outcomeOf (callDriver call rt) (planOf rt (dispatchOrder rt)) s
  have hattempt := dispatchAuto_eq outcomes rt cap
  have hname := @dispatchAuto_name F outcomes rt cap
  refine ⟨outcomes, ?_⟩
  have hdone := dispatchAutoOn_done call rt cap s
  generalize dispatchAutoOn call rt cap s = d at hdone ⊢
  cases hdone with
  | failed hall =>
    rw [attempt_failing hall] at hattempt
    exact ⟨(Prod.mk.inj hattempt).1.symm, fun h => nomatch h⟩
  | @sent done rest i u t hplan hdone hcall =>
    have houtcomes : outcomes = outcomeOf (callDriver call rt) (done ++ i :: rest) s := by
      rw [← hplan]
    rw [hplan, houtcomes, attempt_performed hdone hcall, ← houtcomes] at hattempt
    obtain ⟨hret, hmade⟩ := Prod.mk.inj hattempt
    obtain ⟨j, hlast, hused⟩ := hname hret
    rw [hmade, List.getLast?_concat, Option.some.injEq] at hlast
    subst hlast
    exact ⟨hret.symm, fun _ => hused.symm⟩

end

/-! ## The four links -/

/-- The callbacks `cb_udp`, `cb_tcp`, `cb_uart` and `cb_can`. -/
inductive MatrixLink where
  | udp
  | tcp
  | uart
  | can
  deriving DecidableEq, Repr

namespace MatrixLink

def name : MatrixLink → Bytes
  | udp => ascii "udp"
  | tcp => ascii "tcp"
  | uart => ascii "uart"
  | can => ascii "can"

def send (payload : Bytes) : MatrixLink → ProtocolMatrix → Bool × ProtocolMatrix
  | udp, pm => sendUdp pm payload
  | tcp, pm => sendTcp pm payload
  | uart, pm => sendUart pm payload
  | can, pm => sendCan pm payload

end MatrixLink

/-- A driver of the matrix, with its retries. -/
def registerLink (rt : TransporterRuntime MatrixLink) (link : MatrixLink)
    (priority maxRetries : Int32) : Bool × TransporterRuntime MatrixLink :=
  match transporterRegister rt link.name priority (some link) with
  | (false, rt) => (false, rt)
  | (true, rt) => (true, (transporterSetRetry rt link.name maxRetries).2)

/-- `osfx_protocol_matrix_register_defaults`. -/
def registerDefaults (rt : TransporterRuntime MatrixLink) :
    Bool × TransporterRuntime MatrixLink :=
  match registerLink rt .udp 40 0 with
  | (false, rt) => (false, rt)
  | (true, rt) =>
    match registerLink rt .tcp 35 1 with
    | (false, rt) => (false, rt)
    | (true, rt) =>
      match registerLink rt .uart 20 1 with
      | (false, rt) => (false, rt)
      | (true, rt) => registerLink rt .can 15 0

/-- The drivers of a matrix that has been initialised with its defaults. -/
def defaultDrivers : TransporterRuntime MatrixLink :=
  (registerDefaults (transporterRuntimeInit MatrixLink)).2

/-- `osfx_protocol_dispatch_auto`. -/
def protocolDispatchAuto (rt : TransporterRuntime MatrixLink) (pm : ProtocolMatrix)
    (payload : Bytes) (outUsedNameCap : Nat) : Dispatched ProtocolMatrix :=
  dispatchAutoOn (MatrixLink.send payload) rt outUsedNameCap pm

theorem registerDefaults_init :
    (registerDefaults (transporterRuntimeInit MatrixLink)).1 = true := by
  decide +kernel

/-- The attempts of a dispatch over the default drivers. -/
def linkPlan : List MatrixLink := [.udp, .tcp, .tcp, .uart, .uart, .can]

theorem plan_defaultDrivers : (planOf defaultDrivers (dispatchOrder defaultDrivers)).map
    (fun i => ((defaultDrivers.get i).sendFn, (defaultDrivers.get i).name)) =
      linkPlan.map fun link => (some link, link.name) := by
  decide +kernel

/-! ## What a link puts out -/

namespace MatrixLink

/-- All frames of a payload. -/
def frames (payload : Bytes) : MatrixLink → List MatrixFrame
  | udp => [⟨ascii "udp", payload⟩]
  | tcp => [⟨ascii "tcp", tcpFrame payload⟩]
  | uart => [⟨ascii "uart", uartFrame payload⟩]
  | can => (canFrames payload).map (⟨ascii "can", ·⟩)

/-- The stream links have a frame of 1500 bytes. -/
def Fits (payload : Bytes) : MatrixLink → Prop
  | udp | can => True
  | tcp | uart => payload.length + 2 ≤ streamFrameMax

end MatrixLink

/-- What a send of these frames puts out. -/
structure PutOut (frames : List MatrixFrame) (pm : ProtocolMatrix) (r : Bool × ProtocolMatrix) :
    Prop where
  emitFn : r.2.emitFn = pm.emitFn
  sent : r.1 = true → r.2.emitted = pm.emitted ++ frames
  failed : r.1 = false → ∃ part, part <+: frames ∧ r.2.emitted = pm.emitted ++ part

theorem matrixEmit_putOut (pm : ProtocolMatrix) (protocol frame : Bytes) :
    PutOut [⟨protocol, frame⟩] pm (matrixEmit pm protocol frame) := by
  unfold matrixEmit
  split
  · refine ⟨rfl, fun h => Bool.noConfusion h, fun _ => ?_⟩
    exact ⟨[], List.nil_prefix, (List.append_nil _).symm⟩
  · exact ⟨rfl, fun _ => rfl, fun _ => ⟨_, List.prefix_refl _, rfl⟩⟩

theorem sendFramed_putOut (protocol : Bytes) (frame : Bytes → Bytes) (pm : ProtocolMatrix)
    (payload : Bytes) :
    PutOut [⟨protocol, frame payload⟩] pm (sendFramed protocol frame pm payload) ∧
      ((sendFramed protocol frame pm payload).1 = true → payload.length + 2 ≤ streamFrameMax) := by
  unfold sendFramed
  split
  · refine ⟨⟨rfl, fun h => Bool.noConfusion h, fun _ => ?_⟩, fun h => Bool.noConfusion h⟩
    exact ⟨[], List.nil_prefix, (List.append_nil _).symm⟩
  · rename_i hfits
    exact ⟨matrixEmit_putOut pm protocol (frame payload), fun _ => Nat.not_lt.mp hfits⟩

theorem sendCanFrom_putOut (pm : ProtocolMatrix) (idx : Nat) (rest : Bytes) :
    PutOut ((pieces 8 rest).mapIdx fun k chunk =>
      ⟨ascii "can", canFrame (idx + k) chunk⟩) pm (sendCanFrom pm idx rest) := by
  induction rest using pieces.induct 8 generalizing pm idx with
  | case1 rest hempty =>
    obtain rfl : rest = [] := hempty.resolve_right (by decide)
    rw [sendCanFrom, dif_pos rfl, pieces_nil, List.mapIdx_nil]
    exact ⟨rfl, fun _ => (List.append_nil _).symm, fun h => Bool.noConfusion h⟩
  | case2 rest hrest ih =>
    have hne := (not_or.mp hrest).1
    have hemit := matrixEmit_putOut pm (ascii "can") (canFrame idx (rest.take 8))
    rw [sendCanFrom, dif_neg hne, pieces_of_ne_nil (by decide) hne, List.mapIdx_cons,
      Nat.add_zero]
    generalize matrixEmit pm (ascii "can") (canFrame idx (rest.take 8)) = r at hemit ⊢
    obtain ⟨ret, pm₁⟩ := r
    cases ret with
    | false =>
      obtain ⟨part, hpart, hemitted⟩ := hemit.failed rfl
      refine ⟨hemit.emitFn, fun h => Bool.noConfusion h, fun _ => ⟨part, ?_, hemitted⟩⟩
      exact hpart.trans (List.prefix_append [_] _)
    | true =>
      have hrest := ih pm₁ (idx + 1)
      simp only [Nat.add_assoc, Nat.add_comm 1] at hrest
      refine ⟨hrest.emitFn.trans hemit.emitFn, fun h => ?_, fun h => ?_⟩
      · rw [hrest.sent h, hemit.sent rfl, List.append_assoc, List.singleton_append]
      · obtain ⟨part, hpart, hemitted⟩ := hrest.failed h
        refine ⟨_ :: part, (List.prefix_cons_inj _).mpr hpart, ?_⟩
        rw [hemitted, hemit.sent rfl, List.append_assoc, List.singleton_append]

theorem send_putOut (link : MatrixLink) (payload : Bytes) (pm : ProtocolMatrix) :
    PutOut (link.frames payload) pm (link.send payload pm) ∧
      ((link.send payload pm).1 = true → link.Fits payload) := by
  cases link with
  | udp => exact ⟨matrixEmit_putOut pm (ascii "udp") payload, fun _ => trivial⟩
  | tcp => exact sendFramed_putOut (ascii "tcp") tcpFrame pm payload
  | uart => exact sendFramed_putOut (ascii "uart") uartFrame pm payload
  | can =>
    refine ⟨?_, fun _ => trivial⟩
    have hcan := sendCanFrom_putOut pm 0 payload
    simp only [Nat.zero_add] at hcan
    rw [MatrixLink.frames, canFrames, map_mapIdx]
    exact hcan

/-- Attempts that fail put out beginnings of what they were to send. -/
theorem failing_putOut {payload : Bytes} {links : List MatrixLink} {pm pm' : ProtocolMatrix}
    (h : Failing (MatrixLink.send payload) links pm pm') :
    pm'.emitFn = pm.emitFn ∧ ∃ parts, List.Forall₂ (fun link part => part <+: link.frames payload)
      links parts ∧ pm'.emitted = pm.emitted ++ parts.flatten := by
  induction h with
  | nil => exact ⟨rfl, [], .nil, (List.append_nil _).symm⟩
  | @cons link links s t u hfail _ ih =>
    obtain ⟨hput, -⟩ := send_putOut link payload s
    rw [hfail] at hput
    obtain ⟨part, hpart, hemitted⟩ := hput.failed rfl
    obtain ⟨hfn, parts, hparts, hrest⟩ := ih
    refine ⟨hfn.trans hput.emitFn, part :: parts, .cons hpart hparts, ?_⟩
    rw [hrest, hemitted, List.flatten_cons, List.append_assoc]

/-! ## The default drivers -/

/-- The attempts at slots of a table are attempts at their callbacks. -/
theorem failing_callbacks {F S : Type} {call : F → S → Bool × S} {rt : TransporterRuntime F}
    {plan : List (Fin transporterMax)} {s t : S} (h : Failing (callDriver call rt) plan s t) :
    Failing call (plan.filterMap fun i => (rt.get i).sendFn) s t := by
  induction h with
  | nil => exact .nil
  | @cons i plan s t u hfail _ ih =>
    unfold callDriver at hfail
    cases hfn : (rt.get i).sendFn with
    | none =>
      rw [hfn] at hfail
      cases hfail
      rw [List.filterMap_cons, hfn]
      exact ih
    | some fn =>
      rw [hfn] at hfail
      rw [List.filterMap_cons, hfn]
      exact .cons hfail ih

/-- How a dispatch over the default drivers goes. -/
inductive LinksTried (payload : Bytes) (cap : Nat) (pm : ProtocolMatrix) :
    Dispatched ProtocolMatrix → Prop
  | failed {pm' : ProtocolMatrix} : Failing (MatrixLink.send payload) linkPlan pm pm' →
      LinksTried payload cap pm ⟨false, none, pm'⟩
  | sent {done rest : List MatrixLink} {link : MatrixLink} {pm₁ pm' : ProtocolMatrix} :
      linkPlan = done ++ link :: rest → Failing (MatrixLink.send payload) done pm pm₁ →
      link.send payload pm₁ = (true, pm') →
      LinksTried payload cap pm ⟨true, copyName cap link.name, pm'⟩

theorem protocolDispatch_tried (pm : ProtocolMatrix) (payload : Bytes) (cap : Nat) :
    LinksTried payload cap pm (protocolDispatchAuto defaultDrivers pm payload cap) := by
  have hplan := plan_defaultDrivers
  have hlinks : (planOf defaultDrivers (dispatchOrder defaultDrivers)).filterMap
      (fun i => (defaultDrivers.get i).sendFn) = linkPlan := by
    have := congrArg (List.filterMap Prod.fst) hplan
    rw [List.filterMap_map, List.filterMap_map] at this
    exact this
  have hdone := dispatchAutoOn_done (MatrixLink.send payload) defaultDrivers cap pm
  unfold protocolDispatchAuto
  generalize dispatchAutoOn (MatrixLink.send payload) defaultDrivers cap pm = d at hdone
  cases hdone with
  | failed hall =>
    have hall := failing_callbacks hall
    rw [hlinks] at hall
    exact .failed hall
  | @sent done rest i u t hsplit hdone hcall =>
    have hmem : ((defaultDrivers.get i).sendFn, (defaultDrivers.get i).name) ∈
        linkPlan.map fun link => (some link, link.name) := by
      rw [← hplan, hsplit]
      exact List.mem_map.mpr ⟨i, List.mem_append_right _ List.mem_cons_self, rfl⟩
    obtain ⟨link, -, hlink⟩ := List.mem_map.mp hmem
    obtain ⟨hfn, hname⟩ := Prod.mk.inj hlink
    have hdone := failing_callbacks hdone
    rw [callDriver, ← hfn] at hcall
    rw [← hname]
    have hbehind : linkPlan = done.filterMap (fun i => (defaultDrivers.get i).sendFn) ++
        link :: rest.filterMap fun i => (defaultDrivers.get i).sendFn := by
      rw [← hlinks, hsplit, List.filterMap_append, List.filterMap_cons, ← hfn]
    exact .sent hbehind hdone hcall

/-- What is on the links after a dispatch over the default drivers: where it succeeds, the
beginnings of what failed attempts were to send, in the order of the plan, and then all
frames of the link that is named; where it fails, the beginnings for all attempts. -/
theorem default_dispatch (pm : ProtocolMatrix) (payload : Bytes) (cap : Nat) :
    ∃ done parts, List.Forall₂ (fun link part => part <+: link.frames payload) done parts ∧
      (((protocolDispatchAuto defaultDrivers pm payload cap).ret = false ∧ done = linkPlan ∧
          payload ≠ [] ∧ (protocolDispatchAuto defaultDrivers pm payload cap).usedName = none ∧
          (protocolDispatchAuto defaultDrivers pm payload cap).state.emitted =
            pm.emitted ++ parts.flatten) ∨
        ((protocolDispatchAuto defaultDrivers pm payload cap).ret = true ∧
          ∃ link rest, linkPlan = done ++ link :: rest ∧ link.Fits payload ∧
            (protocolDispatchAuto defaultDrivers pm payload cap).usedName =
              copyName cap link.name ∧
            (protocolDispatchAuto defaultDrivers pm payload cap).state.emitted =
              pm.emitted ++ parts.flatten ++ link.frames payload)) := by
  have htried := protocolDispatch_tried pm payload cap
  generalize protocolDispatchAuto defaultDrivers pm payload cap = d at htried ⊢
  cases htried with
  | failed hall =>
    obtain ⟨-, parts, hparts, hemitted⟩ := failing_putOut hall
    refine ⟨linkPlan, parts, hparts, Or.inl ⟨rfl, rfl, ?_, rfl, hemitted⟩⟩
    -- The last attempt is one of CAN, which sends nothing of an empty payload.
    rintro rfl
    obtain ⟨-, hfailed⟩ := hall.each (P := fun _ => True) (fun _ _ _ => trivial) trivial
    obtain ⟨pm₁, pm₂, -, hcan⟩ := hfailed .can (by decide)
    rw [MatrixLink.send, sendCan, sendCanFrom, dif_pos rfl] at hcan
    cases hcan
  | sent hplan hdone hsend =>
    obtain ⟨-, parts, hparts, hemitted⟩ := failing_putOut hdone
    obtain ⟨hput, hfits⟩ := send_putOut _ payload _
    rw [hsend] at hput hfits
    refine ⟨_, parts, hparts, Or.inr ⟨rfl, _, _, hplan, hfits rfl, rfl, ?_⟩⟩
    rw [hput.sent rfl, hemitted]

/-! ## Links that are up or down -/

/-- Whether the send of a link returns 1 for a payload, where the callback answers by the
protocol alone. An empty payload makes no CAN frame, so that CAN takes it also while it is
down. -/
def MatrixLink.takes (up : Bytes → Bool) (payload : Bytes) : MatrixLink → Bool
  | udp => up (ascii "udp")
  | tcp => decide (payload.length + 2 ≤ streamFrameMax) && up (ascii "tcp")
  | uart => decide (payload.length + 2 ≤ streamFrameMax) && up (ascii "uart")
  | can => payload.isEmpty || up (ascii "can")

section
variable {up : Bytes → Bool}

theorem matrixEmit_up {pm : ProtocolMatrix}
    (hup : pm.emitFn = some fun _ frame => up frame.protocol) (protocol frame : Bytes) :
    (matrixEmit pm protocol frame).1 = up protocol := by
  unfold matrixEmit
  rw [hup]

theorem sendFramed_up {pm : ProtocolMatrix}
    (hup : pm.emitFn = some fun _ frame => up frame.protocol) (protocol : Bytes)
    (frame : Bytes → Bytes) (payload : Bytes) : (sendFramed protocol frame pm payload).1 =
      (decide (payload.length + 2 ≤ streamFrameMax) && up protocol) := by
  unfold sendFramed
  split
  · rename_i hlong
    rw [decide_eq_false (Nat.not_le.mpr hlong), Bool.false_and]
  · rename_i hfits
    rw [decide_eq_true (Nat.not_lt.mp hfits), Bool.true_and]
    exact matrixEmit_up hup protocol (frame payload)

theorem sendCanFrom_up {pm : ProtocolMatrix}
    (hup : pm.emitFn = some fun _ frame => up frame.protocol) (idx : Nat) (rest : Bytes) :
    (sendCanFrom pm idx rest).1 = (rest.isEmpty || up (ascii "can")) := by
  induction rest using pieces.induct 8 generalizing pm idx with
  | case1 rest hempty =>
    obtain rfl : rest = [] := hempty.resolve_right (by decide)
    rw [sendCanFrom, dif_pos rfl]
    rfl
  | case2 rest hrest ih =>
    have hne := (not_or.mp hrest).1
    have hemit := matrixEmit_up hup (ascii "can") (canFrame idx (rest.take 8))
    have hput := matrixEmit_putOut pm (ascii "can") (canFrame idx (rest.take 8))
    rw [sendCanFrom, dif_neg hne, List.isEmpty_eq_false_iff.mpr hne, Bool.false_or]
    generalize matrixEmit pm (ascii "can") (canFrame idx (rest.take 8)) = r at hemit hput ⊢
    obtain ⟨ret, pm₁⟩ := r
    cases ret with
    | false => exact hemit
    | true =>
      have htrue : true = up (ascii "can") := hemit
      have hrest := ih (hput.emitFn.trans hup) (idx + 1)
      rw [← htrue, Bool.or_true] at hrest
      rw [← htrue]
      exact hrest

theorem send_up {pm : ProtocolMatrix} (hup : pm.emitFn = some fun _ frame => up frame.protocol)
    (link : MatrixLink) (payload : Bytes) :
    (link.send payload pm).1 = link.takes up payload := by
  cases link with
  | udp => exact matrixEmit_up hup (ascii "udp") payload
  | tcp => exact sendFramed_up hup (ascii "tcp") tcpFrame payload
  | uart => exact sendFramed_up hup (ascii "uart") uartFrame payload
  | can => exact sendCanFrom_up hup 0 payload

/-- Links that fail do not take the payload, whatever has been tried before. -/
theorem failing_up {payload : Bytes} {links : List MatrixLink} {pm pm' : ProtocolMatrix}
    (hup : pm.emitFn = some fun _ frame => up frame.protocol)
    (h : Failing (MatrixLink.send payload) links pm pm') :
    pm'.emitFn = (some fun _ frame => up frame.protocol) ∧
      ∀ link ∈ links, link.takes up payload = false := by
  have hkeeps : ∀ (link : MatrixLink) (pm : ProtocolMatrix),
      pm.emitFn = (some fun _ frame => up frame.protocol) →
      (link.send payload pm).2.emitFn = some fun _ frame => up frame.protocol :=
    fun link pm hpm => (send_putOut link payload pm).1.emitFn.trans hpm
  obtain ⟨hend, hfailed⟩ := h.each hkeeps hup
  refine ⟨hend, fun link hlink => ?_⟩
  obtain ⟨pm₁, pm₂, hup₁, hsend⟩ := hfailed link hlink
  rw [← send_up hup₁, hsend]

/-- The default matrix falls back from UDP to TCP, to UART and to CAN: the link that is named
is the first one that takes the payload, and the dispatch fails if there is none. -/
theorem default_failover {pm : ProtocolMatrix}
    (hup : pm.emitFn = some fun _ frame => up frame.protocol) (payload : Bytes) (cap : Nat) :
    (protocolDispatchAuto defaultDrivers pm payload cap).ret =
      ([.udp, .tcp, .uart, .can].find? (MatrixLink.takes up payload)).isSome ∧
    (protocolDispatchAuto defaultDrivers pm payload cap).usedName =
      ([.udp, .tcp, .uart, .can].find? (MatrixLink.takes up payload)).bind
        fun link => copyName cap link.name := by
  have hfind : [MatrixLink.udp, .tcp, .uart, .can].find? (MatrixLink.takes up payload) =
      linkPlan.find? (MatrixLink.takes up payload) := by
    simp only [linkPlan, List.find?_cons]
    cases MatrixLink.takes up payload .udp <;> cases MatrixLink.takes up payload .tcp <;>
      cases MatrixLink.takes up payload .uart <;> rfl
  rw [hfind]
  have htried := protocolDispatch_tried pm payload cap
  generalize protocolDispatchAuto defaultDrivers pm payload cap = d at htried ⊢
  cases htried with
  | failed hall =>
    have hnone : linkPlan.find? (MatrixLink.takes up payload) = none := by
      apply List.find?_eq_none.mpr
      intro link hlink
      rw [(failing_up hup hall).2 link hlink]
      exact Bool.false_ne_true
    rw [hnone]
    exact ⟨rfl, rfl⟩
  | @sent done rest link pm₁ pm' hplan hdone hsend =>
    obtain ⟨hup₁, hfailed⟩ := failing_up hup hdone
    have hsome : linkPlan.find? (MatrixLink.takes up payload) = some link := by
      apply List.find?_eq_some_iff_append.mpr
      refine ⟨?_, done, rest, hplan, fun a ha => ?_⟩
      · rw [← send_up hup₁, hsend]
      · rw [hfailed a ha]
        rfl
    rw [hsome]
    exact ⟨rfl, rfl⟩

/-- A matrix whose UDP link is down. -/
def allButUdp (protocol : Bytes) : Bool := decide (protocol ≠ ascii "udp")

def udpDown : ProtocolMatrix := matrixInit (some fun _ frame => allButUdp frame.protocol)

/-- A payload of 1499 bytes does not fit the frames of the stream links. -/
theorem long_payload_on_can :
    (protocolDispatchAuto defaultDrivers udpDown (List.replicate 1499 0) 16).ret = true ∧
      (protocolDispatchAuto defaultDrivers udpDown (List.replicate 1499 0) 16).usedName =
        some (ascii "can") := by
  have hup : udpDown.emitFn = some fun _ frame => allButUdp frame.protocol := rfl
  obtain ⟨hret, hname⟩ := default_failover hup (List.replicate 1499 0) 16
  rw [hret, hname]
  decide +kernel

end

end Osfx
