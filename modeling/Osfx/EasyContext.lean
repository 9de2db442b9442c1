import Osfx.IdStorage
import Osfx.Lib.History
import Osfx.SensorDelivery

/-!
# The easy context

`osfx_easy.c`: one context with the table of its streams, its id and where that comes from,
its template id and its node. The encode calls take all of these from the context.

An id is set, or allocated from a pool of the context's own, and goes away when it is set to
0 or another pool is loaded. `easy_packets_sourced` says that whatever a context was called
with, each packet it gives out is of the id that was given last and not taken since, and of
the template id that was set last.
-/

namespace Osfx

open EventSystem Histories Streams

/-- `node_id` and `node_state` are the texts up to their terminators. -/
structure EasyContext (n : Nat) where
  txState : FusionState FusionSizes.headerDefault
  idAlloc : IdAllocator n
  aid : UInt32
  tid : UInt8
  aidReady : Bool
  idAllocReady : Bool
  nodeId : Bytes
  nodeState : Bytes

/-- A NULL or empty value is replaced. -/
def copyWithFallback (cap : Nat) (value : Option Bytes) (fallback : Bytes) : Option Bytes :=
  copyText cap ((value.filter (· ≠ [])).getD fallback)

/-- An allocator of zeroes, as `memset` leaves it. -/
def IdAllocator.zeroes (n : Nat) : IdAllocator n :=
  ⟨0, 0, 0, 0, 0, 0, 0, 0, 0, 0, 0, false, 0, 0, Vector.replicate n .zero⟩

def easyInit (n : Nat) : EasyContext n where
  txState := fusionStateInit FusionSizes.headerDefault
  idAlloc := IdAllocator.zeroes n
  aid := 0
  tid := 2
  aidReady := false
  idAllocReady := false
  nodeId := ascii "NODE_A"
  nodeState := ascii "ONLINE"

namespace EasyContext

variable {n : Nat} (ctx : EasyContext n)

/-- The id of the node is set even if its state does not fit. -/
def setNode (nodeId nodeState : Option Bytes) : EasyContext n × Bool :=
  match copyWithFallback tmplIdMax nodeId (ascii "NODE_A") with
  | none => (ctx, false)
  | some nodeId =>
    match copyWithFallback tmplStateMax nodeState (ascii "ONLINE") with
    | none => ({ ctx with nodeId }, false)
    | some nodeState => ({ ctx with nodeId, nodeState }, true)

def setTid (tid : UInt8) : EasyContext n := { ctx with tid }

def setAid (aid : UInt32) : EasyContext n := { ctx with aid, aidReady := decide (aid > 0) }

def initIdAllocator (startId endId : UInt32) (defaultLeaseSeconds : UInt64) :
    EasyContext n × Bool :=
  if startId > endId then (ctx, false)
  else ({ ctx with
    idAlloc := .init n startId endId defaultLeaseSeconds
    idAllocReady := true }, true)

/-- The id that is allocated, if one is. -/
def allocateAid (nowTs : UInt64) : EasyContext n × Option UInt32 :=
  if ctx.idAllocReady = false then (ctx, none)
  else
    match ctx.idAlloc.allocate nowTs with
    | (idAlloc, none) => ({ ctx with idAlloc }, none)
    | (idAlloc, some aid) => ({ ctx with idAlloc, aid, aidReady := true }, some aid)

def touchAid (nowTs : UInt64) : EasyContext n × Bool :=
  if ctx.idAllocReady = false ∨ ctx.aidReady = false then (ctx, false)
  else ({ ctx with idAlloc := (ctx.idAlloc.touch ctx.aid nowTs).1 },
    (ctx.idAlloc.touch ctx.aid nowTs).2)

/-- A load that fails on the way has changed the allocator all the same. -/
def loadIds (reader : Option StorageReader) : EasyContext n × Bool :=
  if (ctx.idAlloc.load reader).2 = false then
    ({ ctx with idAlloc := (ctx.idAlloc.load reader).1 }, false)
  else ({ ctx with
    idAlloc := (ctx.idAlloc.load reader).1
    idAllocReady := true
    aidReady := false
    aid := 0 }, true)

variable {V : Type} (resolve : V → Bytes → Int64 × Bytes)

/-- The arguments of the encode call for one sensor. -/
def sensorCall (timestampRaw : UInt64) (sensorId : Bytes) (inputValue : V) (inputUnit : Bytes)
    (outPacketCap : Nat) : SensorCall V :=
  ⟨ctx.aid, ctx.tid, timestampRaw, sensorId, inputValue, inputUnit, outPacketCap⟩

def encodeSensorAuto (timestampRaw : UInt64) (sensorId : Bytes) (inputValue : V)
    (inputUnit : Bytes) (outPacketCap : Nat) (out : EncodeOut) :
    Option (EasyContext n × EncodeAnswer) :=
  if ctx.aidReady = false then some (ctx, false, out)
  else (autoEncodeStep CoreConfig.headerDefault.exts CoreConfig.headerDefault.tmplMaxSensors
    resolve ctx.txState (ctx.sensorCall timestampRaw sensorId inputValue inputUnit outPacketCap,
      out)).map fun r => ({ ctx with txState := r.1 }, r.2)

/-- The arguments of the encode call for several. -/
def multiSensorCall (timestampRaw : UInt64) (sensors : List (SensorInput V))
    (outPacketCap : Nat) : MultiSensorCall V :=
  ⟨ctx.aid, ctx.tid, timestampRaw, ctx.nodeId, ctx.nodeState, sensors, outPacketCap⟩

/-- What the multi-sensor calls make of a value and its unit. -/
abbrev standardizeSensor : V → Bytes → Option (Int64 × Bytes) :=
  standardizeValue resolve tmplUnitMax

def encodeMultiSensorAuto (timestampRaw : UInt64) (sensors : List (SensorInput V))
    (outPacketCap : Nat) (out : EncodeOut) : Option (EasyContext n × EncodeAnswer) :=
  if ctx.aidReady = false ∨ sensors.length = 0 then some (ctx, false, out)
  else (multiEncodeStep (standardizeSensor resolve) ctx.txState
    (ctx.multiSensorCall timestampRaw sensors outPacketCap, out)).map fun r =>
      ({ ctx with txState := r.1 }, r.2)

end EasyContext

/-! ## Calls -/

inductive EasyOp (V : Type) where
  | setNode (nodeId nodeState : Option Bytes)
  | setTid (tid : UInt8)
  | setAid (aid : UInt32)
  | initIdAllocator (startId endId : UInt32) (defaultLeaseSeconds : UInt64)
  | allocateAid (nowTs : UInt64)
  | touchAid (nowTs : UInt64)
  | loadIds (reader : Option StorageReader)
  | encodeSensorAuto (timestampRaw : UInt64) (sensorId : Bytes) (inputValue : V)
      (inputUnit : Bytes) (outPacketCap : Nat) (out : EncodeOut)
  | encodeMultiSensorAuto (timestampRaw : UInt64) (sensors : List (SensorInput V))
      (outPacketCap : Nat) (out : EncodeOut)

/-- What a call returns, with what it hands out. -/
inductive EasyAnswer where
  | done
  | status (ret : Bool)
  | aid (outAid : Option UInt32)
  | packet (answer : EncodeAnswer)

/-- The packet a call gives out. -/
def EasyAnswer.given : EasyAnswer → Option EncodeOut
  | .packet answer => if answer.1 then some answer.2 else none
  | .done | .status _ | .aid _ => none

section
variable {n : Nat} {V : Type} (resolve : V → Bytes → Int64 × Bytes)

def easyStep (ctx : EasyContext n) : EasyOp V → Option (EasyContext n × EasyAnswer)
  | .setNode nodeId nodeState =>
    some ((ctx.setNode nodeId nodeState).1, .status (ctx.setNode nodeId nodeState).2)
  | .setTid tid => some (ctx.setTid tid, .done)
  | .setAid aid => some (ctx.setAid aid, .done)
  | .initIdAllocator startId endId lease =>
    some ((ctx.initIdAllocator startId endId lease).1,
      .status (ctx.initIdAllocator startId endId lease).2)
  | .allocateAid nowTs => some ((ctx.allocateAid nowTs).1, .aid (ctx.allocateAid nowTs).2)
  | .touchAid nowTs => some ((ctx.touchAid nowTs).1, .status (ctx.touchAid nowTs).2)
  | .loadIds reader => some ((ctx.loadIds reader).1, .status (ctx.loadIds reader).2)
  | .encodeSensorAuto timestampRaw sensorId inputValue inputUnit outPacketCap out =>
    (ctx.encodeSensorAuto resolve timestampRaw sensorId inputValue inputUnit outPacketCap
      out).map fun r => (r.1, .packet r.2)
  | .encodeMultiSensorAuto timestampRaw sensors outPacketCap out =>
    (ctx.encodeMultiSensorAuto resolve timestampRaw sensors outPacketCap out).map fun r =>
      (r.1, .packet r.2)

/-- The call of the facade that a call of the context makes, if it makes one. -/
def EasyContext.facadeCall (ctx : EasyContext n) :
    EasyOp V → Option ((SensorCall V ⊕ MultiSensorCall V) × EncodeOut)
  | .encodeSensorAuto timestampRaw sensorId inputValue inputUnit outPacketCap out =>
    if ctx.aidReady = false then none
    else some (.inl (ctx.sensorCall timestampRaw sensorId inputValue inputUnit outPacketCap), out)
  | .encodeMultiSensorAuto timestampRaw sensors outPacketCap out =>
    if ctx.aidReady = false ∨ sensors.length = 0 then none
    else some (.inr (ctx.multiSensorCall timestampRaw sensors outPacketCap), out)
  | _ => none

/-- Both kinds of calls of the facade, on the one table of a context. -/
abbrev easyCodec : BodyCodec (SensorCall V ⊕ MultiSensorCall V) (AutoWant ⊕ MultiSensorCaps)
    (AutoReading ⊕ MultiSensorOut) :=
  (autoCodec CoreConfig.headerDefault.exts CoreConfig.headerDefault.tmplMaxSensors resolve).sum
    (multiCodec (EasyContext.standardizeSensor resolve))

variable {resolve}

theorem multiSensorBody_length {standardize : V → Bytes → Option (Int64 × Bytes)}
    {call : MultiSensorCall V} {body : Bytes}
    (h : multiSensorBody .headerDefault standardize call = some body) :
    body.length < CoreConfig.headerDefault.bodyCap := by
  unfold multiSensorBody at h
  split at h
  · cases h
  · obtain ⟨slots, -, h⟩ := Option.bind_eq_some_iff.mp h
    rw [templateEncode_eq] at h
    split at h
    · rename_i hfits
      cases h
      exact hfits.2
    · cases h

/-- A call of either kind returns 1 for a packet of its stream, and leaves the table in
order. -/
theorem easyCodec_stream {st t : FusionState FusionSizes.headerDefault} (hok : StateOk st)
    {x : (SensorCall V ⊕ MultiSensorCall V) × EncodeOut} {a : EncodeAnswer}
    (h : (easyCodec resolve).encodeStep st x = some (t, a)) :
    StateOk t ∧ (a.1 = true → packetStream a.2.packet = some ((easyCodec resolve).stream x.1)) := by
  have hsmall : FusionSizes.headerDefault.Small := FusionSizes.shipped_small (by decide)
  have hfits : FusionSizes.headerDefault.FieldsFit := hsmall
  unfold BodyCodec.encodeStep at h
  cases hcall : (easyCodec resolve).call x.1 with
  | none =>
    simp only [hcall, Option.some.injEq, Prod.mk.injEq] at h
    obtain ⟨rfl, rfl⟩ := h
    exact ⟨hok, fun hret => Bool.noConfusion hret⟩
  | some call =>
    simp only [hcall] at h
    refine ⟨encodeStep_stateOk hfits hok h, fun hret => ?_⟩
    rw [← (easyCodec resolve).call_stream hcall]
    refine encode_stream hsmall hok (encodeStep_some.mp h) hret fun _ => ?_
    obtain ⟨x | x, out⟩ := x
    · obtain ⟨body, hbody, rfl⟩ := Option.map_eq_some_iff.mp hcall
      have hlen := (sensorAutoBody_some hbody).2
      exact Nat.lt_of_le_of_lt (Nat.add_le_add_right hlen 16) (by decide)
    · obtain ⟨body, hbody, rfl⟩ := Option.map_eq_some_iff.mp hcall
      have hlen := multiSensorBody_length hbody
      exact Nat.lt_of_le_of_lt (Nat.add_le_add_right (Nat.le_of_lt hlen) 16) (by decide)

/-! ## One call -/

/-- A call either leaves the table alone and gives no packet out, or it is a call of the
facade with the id and the template id of the context. -/
theorem easyStep_facade {ctx ctx' : EasyContext n} {op : EasyOp V} {a : EasyAnswer}
    (h : easyStep resolve ctx op = some (ctx', a)) :
    (ctx.facadeCall op = none ∧ ctx'.txState = ctx.txState ∧ a.given = none) ∨
    ∃ x answer, ctx.facadeCall op = some x ∧ a = .packet answer ∧ ctx.aidReady = true ∧
      (easyCodec resolve).stream x.1 = (ctx.aid, ctx.tid) ∧
      (easyCodec resolve).encodeStep ctx.txState x = some (ctx'.txState, answer) := by
  cases op with
  | setTid tid =>
    cases h
    exact Or.inl ⟨rfl, rfl, rfl⟩
  | setAid aid =>
    cases h
    exact Or.inl ⟨rfl, rfl, rfl⟩
  | setNode nodeId nodeState =>
    cases h
    refine Or.inl ⟨rfl, ?_, rfl⟩
    unfold EasyContext.setNode
    cases copyWithFallback tmplIdMax nodeId (ascii "NODE_A") with
    | none => rfl
    | some nodeId =>
      cases copyWithFallback tmplStateMax nodeState (ascii "ONLINE") <;> rfl
  | initIdAllocator startId endId lease =>
    cases h
    refine Or.inl ⟨rfl, ?_, rfl⟩
    unfold EasyContext.initIdAllocator
    split <;> rfl
  | allocateAid nowTs =>
    cases h
    refine Or.inl ⟨rfl, ?_, rfl⟩
    unfold EasyContext.allocateAid
    split
    · rfl
    · obtain ⟨idAlloc, aid⟩ := ctx.idAlloc.allocate nowTs
      cases aid <;> rfl
  | touchAid nowTs =>
    cases h
    refine Or.inl ⟨rfl, ?_, rfl⟩
    unfold EasyContext.touchAid
    split <;> rfl
  | loadIds reader =>
    cases h
    refine Or.inl ⟨rfl, ?_, rfl⟩
    unfold EasyContext.loadIds
    split <;> rfl
  | encodeSensorAuto timestampRaw sensorId inputValue inputUnit outPacketCap out =>
    obtain ⟨r, hr, heq⟩ := Option.map_eq_some_iff.mp h
    cases heq
    unfold EasyContext.encodeSensorAuto at hr
    split at hr
    · rename_i hready
      cases hr
      exact Or.inl ⟨if_pos hready, rfl, rfl⟩
    · rename_i hready
      obtain ⟨u, hu, rfl⟩ := Option.map_eq_some_iff.mp hr
      refine Or.inr ⟨_, u.2, if_neg hready, rfl, Bool.eq_true_of_not_eq_false hready, rfl, ?_⟩
      rw [autoEncodeStep_eq] at hu
      exact hu
  | encodeMultiSensorAuto timestampRaw sensors outPacketCap out =>
    obtain ⟨r, hr, heq⟩ := Option.map_eq_some_iff.mp h
    cases heq
    unfold EasyContext.encodeMultiSensorAuto at hr
    split at hr
    · rename_i hready
      cases hr
      exact Or.inl ⟨if_pos hready, rfl, rfl⟩
    · rename_i hready
      obtain ⟨u, hu, rfl⟩ := Option.map_eq_some_iff.mp hr
      refine Or.inr ⟨_, u.2, if_neg hready, rfl,
        Bool.eq_true_of_not_eq_false (not_or.mp hready).1, rfl, ?_⟩
      rw [multiEncodeStep_eq] at hu
      exact hu

/-! ## Where the id comes from -/

/-- The id that a call gives to its context. -/
def givenAid : EasyOp V × EasyAnswer → Option UInt32
  | (.setAid aid, _) => if aid > 0 then some aid else none
  | (.allocateAid _, .aid outAid) => outAid
  | _ => none

/-- The call takes the id of its context away. -/
def TakesAid : EasyOp V × EasyAnswer → Prop
  | (.setAid aid, _) => aid = 0
  | (.loadIds _, .status ret) => ret = true
  | _ => False

/-- This id was given, and since then none was given or taken. -/
def AidInForce (aid : UInt32) : List (EasyOp V × EasyAnswer) → Prop :=
  Since (fun x => givenAid x = some aid) fun x => (givenAid x).isSome = true ∨ TakesAid x

def givenTid : EasyOp V × EasyAnswer → Option UInt8
  | (.setTid tid, _) => some tid
  | _ => none

/-- This template id was set last, or it is the 2 that a context starts with. -/
def TidInForce (tid : UInt8) (log : List (EasyOp V × EasyAnswer)) : Prop :=
  Since (fun x => givenTid x = some tid) (fun x => (givenTid x).isSome = true) log ∨
    (tid = 2 ∧ ∀ x ∈ log, givenTid x = none)

/-- The encode calls change the table only. -/
theorem easyStep_encode {ctx ctx' : EasyContext n} {op : EasyOp V} {answer : EncodeAnswer}
    (h : easyStep resolve ctx op = some (ctx', .packet answer)) :
    ∃ txState, ctx' = { ctx with txState } := by
  cases op with
  | encodeSensorAuto timestampRaw sensorId inputValue inputUnit outPacketCap out =>
    obtain ⟨r, hr, heq⟩ := Option.map_eq_some_iff.mp h
    cases heq
    unfold EasyContext.encodeSensorAuto at hr
    split at hr
    · cases hr
      exact ⟨_, rfl⟩
    · obtain ⟨u, -, rfl⟩ := Option.map_eq_some_iff.mp hr
      exact ⟨u.1, rfl⟩
  | encodeMultiSensorAuto timestampRaw sensors outPacketCap out =>
    obtain ⟨r, hr, heq⟩ := Option.map_eq_some_iff.mp h
    cases heq
    unfold EasyContext.encodeMultiSensorAuto at hr
    split at hr
    · cases hr
      exact ⟨_, rfl⟩
    · obtain ⟨u, -, rfl⟩ := Option.map_eq_some_iff.mp hr
      exact ⟨u.1, rfl⟩
  | setNode | setTid | setAid | initIdAllocator | allocateAid | touchAid | loadIds => cases h

/-- What a call does to the id of its context. -/
inductive AidMoves (ctx : EasyContext n) (x : EasyOp V × EasyAnswer) (ctx' : EasyContext n) : Prop
  | given (aid : UInt32) (hgiven : givenAid x = some aid) (ready : ctx'.aidReady = true)
      (same : ctx'.aid = aid)
  | taken (hgiven : givenAid x = none) (takes : TakesAid x) (ready : ctx'.aidReady = false)
  | kept (hgiven : givenAid x = none) (keeps : ¬ TakesAid x) (ready : ctx'.aidReady = ctx.aidReady)
      (same : ctx'.aid = ctx.aid)

theorem easyStep_moves {ctx ctx' : EasyContext n} {op : EasyOp V} {a : EasyAnswer}
    (h : easyStep resolve ctx op = some (ctx', a)) :
    AidMoves ctx (op, a) ctx' ∧ ctx'.tid = (givenTid (op, a)).getD ctx.tid := by
  cases op with
  | setAid aid =>
    cases h
    refine ⟨?_, rfl⟩
    by_cases haid : aid > 0
    · exact .given aid (if_pos haid) (decide_eq_true haid) rfl
    · have hzero : aid = 0 := UInt32.le_zero_iff.mp (UInt32.not_lt.mp haid)
      exact .taken (if_neg haid) hzero (decide_eq_false haid)
  | allocateAid nowTs =>
    cases h
    unfold EasyContext.allocateAid
    split
    · exact ⟨.kept rfl id rfl rfl, rfl⟩
    · obtain ⟨idAlloc, aid⟩ := ctx.idAlloc.allocate nowTs
      cases aid with
      | none => exact ⟨.kept rfl id rfl rfl, rfl⟩
      | some aid => exact ⟨.given aid rfl rfl rfl, rfl⟩
  | loadIds reader =>
    cases h
    unfold EasyContext.loadIds
    split
    · exact ⟨.kept rfl Bool.false_ne_true rfl rfl, rfl⟩
    · exact ⟨.taken rfl rfl rfl, rfl⟩
  | setTid tid =>
    cases h
    exact ⟨.kept rfl id rfl rfl, rfl⟩
  | setNode nodeId nodeState =>
    cases h
    unfold EasyContext.setNode
    cases copyWithFallback tmplIdMax nodeId (ascii "NODE_A") with
    | none => exact ⟨.kept rfl id rfl rfl, rfl⟩
    | some nodeId =>
      cases copyWithFallback tmplStateMax nodeState (ascii "ONLINE") with
      | none => exact ⟨.kept rfl id rfl rfl, rfl⟩
      | some nodeState => exact ⟨.kept rfl id rfl rfl, rfl⟩
  | initIdAllocator startId endId lease =>
    cases h
    unfold EasyContext.initIdAllocator
    split
    · exact ⟨.kept rfl id rfl rfl, rfl⟩
    · exact ⟨.kept rfl id rfl rfl, rfl⟩
  | touchAid nowTs =>
    cases h
    unfold EasyContext.touchAid
    split
    · exact ⟨.kept rfl id rfl rfl, rfl⟩
    · exact ⟨.kept rfl id rfl rfl, rfl⟩
  | encodeSensorAuto timestampRaw sensorId inputValue inputUnit outPacketCap out =>
    obtain ⟨⟨_, answer⟩, -, heq⟩ := Option.map_eq_some_iff.mp h
    cases heq
    obtain ⟨txState, rfl⟩ := easyStep_encode h
    exact ⟨.kept rfl id rfl rfl, rfl⟩
  | encodeMultiSensorAuto timestampRaw sensors outPacketCap out =>
    obtain ⟨⟨_, answer⟩, -, heq⟩ := Option.map_eq_some_iff.mp h
    cases heq
    obtain ⟨txState, rfl⟩ := easyStep_encode h
    exact ⟨.kept rfl id rfl rfl, rfl⟩

end

/-! ## Runs -/

/-- A context, the calls it was given with their answers, and those of the facade that it
made. -/
structure EasyWorld (n : Nat) (V : Type) where
  ctx : EasyContext n
  log : List (EasyOp V × EasyAnswer)
  sent : List (BodyCodec.Sent (SensorCall V ⊕ MultiSensorCall V))

section
variable {n : Nat} {V : Type} (resolve : V → Bytes → Int64 × Bytes)

/-- What a call adds to those of the facade. -/
def EasyContext.sentBy (ctx : EasyContext n) (op : EasyOp V) :
    EasyAnswer → List (BodyCodec.Sent (SensorCall V ⊕ MultiSensorCall V))
  | .packet answer => (ctx.facadeCall op).toList.map fun x => (x, answer)
  | .done | .status _ | .aid _ => []

def easyWorldStep (w : EasyWorld n V) (op : EasyOp V) : Option (EasyWorld n V) :=
  (easyStep resolve w.ctx op).map fun r => {
    ctx := r.1
    log := w.log ++ [(op, r.2)]
    sent := w.sent ++ w.ctx.sentBy op r.2 }

def easyStart (n : Nat) (V : Type) : EasyWorld n V := ⟨easyInit n, [], []⟩

/-- A packet that is given out is of the id and the template id in force. -/
def Sourced (before : List (EasyOp V × EasyAnswer)) (x : EasyOp V × EasyAnswer) : Prop :=
  ∀ out, x.2.given = some out → ∃ aid tid, AidInForce aid before ∧ TidInForce tid before ∧
    packetStream out.packet = some (aid, tid)

structure EasyOk (w : EasyWorld n V) : Prop where
  table : StateOk w.ctx.txState
  aid : ∀ aid, AidInForce aid w.log ↔ w.ctx.aidReady = true ∧ w.ctx.aid = aid
  tid : TidInForce w.ctx.tid w.log
  sourced : Throughout Sourced w.log

variable {resolve}

theorem aidInForce_snoc {log : List (EasyOp V × EasyAnswer)} {ctx ctx' : EasyContext n}
    {x : EasyOp V × EasyAnswer}
    (hlog : ∀ aid, AidInForce aid log ↔ ctx.aidReady = true ∧ ctx.aid = aid)
    (h : AidMoves ctx x ctx') (aid : UInt32) :
    AidInForce aid (log ++ [x]) ↔ ctx'.aidReady = true ∧ ctx'.aid = aid := by
  unfold AidInForce at hlog ⊢
  rw [since_snoc, hlog aid]
  cases h with
  | given given hgiven hready hsame =>
    simp only [hgiven, hready, hsame, Option.some.injEq, Option.isSome_some, true_or, not_true,
      and_false, or_false, true_and]
  | taken hgiven htakes hready =>
    simp only [hgiven, htakes, hready, or_true, not_true, and_false, or_false, Bool.false_eq_true,
      false_and, reduceCtorEq]
  | kept hgiven hkeeps hready hsame =>
    simp only [hgiven, hkeeps, hready, hsame, Option.isSome_none, Bool.false_eq_true, or_self,
      not_false_eq_true, and_true, reduceCtorEq, false_or]

theorem tidInForce_snoc {log : List (EasyOp V × EasyAnswer)} {x : EasyOp V × EasyAnswer}
    {tid : UInt8} (h : TidInForce tid log) : TidInForce ((givenTid x).getD tid) (log ++ [x]) := by
  unfold TidInForce at h ⊢
  rw [since_snoc]
  cases hx : givenTid x with
  | some t => exact Or.inl (Or.inl rfl)
  | none =>
    rcases h with h | ⟨rfl, hnone⟩
    · exact Or.inl (Or.inr ⟨h, Bool.false_ne_true⟩)
    · refine Or.inr ⟨rfl, fun y hy => ?_⟩
      rcases List.mem_append.mp hy with hy | hy
      · exact hnone y hy
      · rw [List.mem_singleton.mp hy]
        exact hx

theorem easyWorldStep_ok (w : EasyWorld n V) (op : EasyOp V) (w' : EasyWorld n V)
    (hok : EasyOk w) (h : easyWorldStep resolve w op = some w') : EasyOk w' := by
  obtain ⟨⟨ctx, a⟩, hstep, rfl⟩ := Option.map_eq_some_iff.mp h
  obtain ⟨haid, htid⟩ := easyStep_moves hstep
  have hsource : StateOk ctx.txState ∧ Sourced w.log (op, a) := by
    rcases easyStep_facade hstep with
      ⟨-, htable, hgiven⟩ | ⟨x, answer, -, rfl, hready, hstream, hcall⟩
    · refine ⟨htable ▸ hok.table, fun out hout => ?_⟩
      rw [hgiven] at hout
      cases hout
    · obtain ⟨htable, hpacket⟩ := easyCodec_stream hok.table hcall
      refine ⟨htable, fun out hout => ?_⟩
      obtain ⟨hret, rfl⟩ : answer.1 = true ∧ answer.2 = out := by
        simpa [EasyAnswer.given] using hout
      exact ⟨w.ctx.aid, w.ctx.tid, (hok.aid _).mpr ⟨hready, rfl⟩, hok.tid,
        (hpacket hret).trans (congrArg some hstream)⟩
  refine ⟨hsource.1, aidInForce_snoc hok.aid haid, ?_, ?_⟩
  · rw [htid]
    exact tidInForce_snoc hok.tid
  · exact throughout_snoc.mpr ⟨hok.sourced, hsource.2⟩

/-- Whatever a context is called with, in whatever order, each packet it gives out is of the
id that was given last and not taken since, and of the template id in force. -/
theorem easy_packets_sourced (resolve : V → Bytes → Int64 × Bytes) (ops : List (EasyOp V)) :
    Always (easyWorldStep resolve) (fun w => Throughout Sourced w.log) (easyStart n V) ops := by
  have hstart : EasyOk (easyStart n V) := by
    have hsmall : FusionSizes.headerDefault.Small := FusionSizes.shipped_small (by decide)
    have hfits : FusionSizes.headerDefault.FieldsFit := hsmall
    have hnone : ∀ x ∈ (easyStart n V).log, givenTid x = none := List.forall_mem_nil _
    refine ⟨stateOk_init hfits, fun aid => ?_, Or.inr ⟨rfl, hnone⟩, throughout_nil _⟩
    exact ⟨fun h => absurd h (not_since_nil _ _), fun h => absurd h.1 Bool.false_ne_true⟩
  have hany : Each (easyWorldStep resolve) (fun _ _ => True) (easyStart n V) ops :=
    each_of_forall _ _ fun _ _ => trivial
  have hall := always_of_each _ (fun w op w' hok _ h => easyWorldStep_ok w op w' hok h) hstart hany
  exact always_mono _ (fun _ hok => hok.sourced) hall

end

end Osfx
