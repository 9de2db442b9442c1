import Osfx.EasyContext

/-!
# Readings of an easy context end to end

The sensors of an easy context are sent one at a time or several in a packet, in any order,
on one table of streams, while its id, template id and node are changed. What the facade is
called with in between is a run of both its automatic paths (`easyWorld_calls`), so that after
a FULL a receiver recovers the readings of each packet of that stream, whichever of the two
calls it was made by (`easy_readings_recovered`).
-/

namespace Osfx

open EventSystem Streams

section
variable {n : Nat} {V : Type} {resolve : V → Bytes → Int64 × Bytes}

/-- The calls of the facade in a run, in order. -/
theorem easyWorld_calls {w w' : EasyWorld n V} {ops : List (EasyOp V)}
    (hrun : run (easyWorldStep resolve) w ops = some w') :
    ∃ calls sent, trace (easyCodec resolve).encodeStep w.ctx.txState calls =
        some (w'.ctx.txState, sent) ∧ w'.sent = w.sent ++ sent := by
  induction ops generalizing w with
  | nil =>
    cases hrun
    exact ⟨[], [], rfl, (List.append_nil _).symm⟩
  | cons op ops ih =>
    rw [run_cons] at hrun
    obtain ⟨u, hu, hrun⟩ := Option.bind_eq_some_iff.mp hrun
    obtain ⟨calls, sent, htrace, hsent⟩ := ih hrun
    obtain ⟨⟨ctx, a⟩, hstep, rfl⟩ := Option.map_eq_some_iff.mp hu
    rcases easyStep_facade hstep with
      ⟨hnone, htable, -⟩ | ⟨x, answer, hcall, rfl, -, -, hencode⟩
    · refine ⟨calls, sent, htable ▸ htrace, ?_⟩
      have hby : w.ctx.sentBy op a = [] := by
        cases a with
        | packet answer => simp only [EasyContext.sentBy, hnone, Option.toList_none, List.map_nil]
        | done | status | aid => rfl
      rw [hsent, hby, List.append_nil]
    · refine ⟨x :: calls, (x, answer) :: sent, ?_, ?_⟩
      · exact (trace_cons _).mpr ⟨_, answer, sent, hencode, htrace, rfl⟩
      · rw [hsent]
        simp only [EasyContext.sentBy, hcall, Option.toList_some, List.map_singleton,
          List.append_assoc, List.singleton_append]

end

/-! ## The receiver -/

section
variable {n : Nat} {V : Type} (resolve : V → Bytes → Int64 × Bytes)

/-- A packet is decoded as that of one sensor, or of several. -/
def easyDecodeStep (rt : FusionState FusionSizes.headerDefault)
    (y : Bytes × (AutoWant ⊕ MultiSensorCaps)) : Option (FusionState FusionSizes.headerDefault ×
      Option ((AutoReading ⊕ MultiSensorOut) × PacketMeta)) :=
  match y.2 with
  | .inl want =>
    (autoDecodeStep CoreConfig.headerDefault.exts CoreConfig.headerDefault.tmplMaxSensors rt
      (y.1, want)).map fun r => (r.1, r.2.map (Prod.map .inl id))
  | .inr caps => (multiDecodeStep rt (y.1, caps)).map fun r => (r.1, r.2.map (Prod.map .inr id))

theorem easyDecodeStep_eq : easyDecodeStep = (easyCodec resolve).decodeStep := by
  funext rt ⟨packet, want⟩
  cases want with
  | inl want =>
    rw [BodyCodec.sum_decodeStep_inl, easyDecodeStep, autoDecodeStep_eq _ _ resolve]
  | inr caps =>
    rw [BodyCodec.sum_decodeStep_inr, easyDecodeStep,
      multiDecodeStep_eq (EasyContext.standardizeSensor resolve)]

/-- The packet of a call arrives at the decode call of its kind, with room for what is asked
for. -/
def EasyDelivers (s : BodyCodec.Sent (SensorCall V ⊕ MultiSensorCall V))
    (r : BodyCodec.Received (AutoWant ⊕ MultiSensorCaps) (AutoReading ⊕ MultiSensorOut)) : Prop :=
  match s.1.1, r.1.2 with
  | .inl x, .inl want => AutoDelivers resolve ((x, s.1.2), s.2) ((r.1.1, want), r.2)
  | .inr x, .inr caps =>
    MultiDelivers (EasyContext.standardizeSensor resolve) ((x, s.1.2), s.2) ((r.1.1, caps), r.2)
  | _, _ => False

/-- What is handed out is the reading of the call, or its node and readings. -/
def EasyRead (s : BodyCodec.Sent (SensorCall V ⊕ MultiSensorCall V))
    (r : BodyCodec.Received (AutoWant ⊕ MultiSensorCaps) (AutoReading ⊕ MultiSensorOut)) : Prop :=
  match s.1.1, r.1.2 with
  | .inl x, .inl want => r.2.map Prod.fst = some (.inl (x.autoReading resolve want))
  | .inr x, .inr _ => ∃ out, r.2.map Prod.fst = some (.inr out) ∧
      x.DeliveredAs (EasyContext.standardizeSensor resolve) (some out)
  | _, _ => False

variable {resolve}

theorem EasyDelivers.delivers {s : BodyCodec.Sent (SensorCall V ⊕ MultiSensorCall V)}
    {r : BodyCodec.Received (AutoWant ⊕ MultiSensorCaps) (AutoReading ⊕ MultiSensorOut)}
    (hissued : (easyCodec resolve).Issued FusionSizes.headerDefault s)
    (h : EasyDelivers resolve s r) :
    (easyCodec resolve).Delivers FusionSizes.headerDefault s r := by
  have hfits : FusionSizes.headerDefault.FieldsFit :=
    FusionSizes.shipped_small (c := FusionSizes.headerDefault) (by decide)
  obtain ⟨⟨x | x, out⟩, a⟩ := s
  · obtain ⟨⟨packet, want | caps⟩, b⟩ := r
    · have hone : AutoDelivers resolve ((x, out), a)
          ((packet, want), (none : Option (AutoReading × PacketMeta))) :=
        ⟨h.sent, h.packet, h.sendable, h.wanted⟩
      have hown : (autoCodec CoreConfig.headerDefault.exts CoreConfig.headerDefault.tmplMaxSensors
        resolve).Issued FusionSizes.headerDefault ((x, out), a) := hissued
      exact hone.delivers hfits hown
    · exact h.elim
  · obtain ⟨⟨packet, want | caps⟩, b⟩ := r
    · exact h.elim
    · have hone : MultiDelivers (EasyContext.standardizeSensor resolve) ((x, out), a)
          ((packet, caps), (none : Option (MultiSensorOut × PacketMeta))) :=
        ⟨h.sent, h.packet, h.call, h.caps⟩
      have hown : (multiCodec (EasyContext.standardizeSensor resolve)).Issued
        FusionSizes.headerDefault ((x, out), a) := hissued
      exact hone.delivers hown

theorem EasyDelivers.read {s : BodyCodec.Sent (SensorCall V ⊕ MultiSensorCall V)}
    {r : BodyCodec.Received (AutoWant ⊕ MultiSensorCaps) (AutoReading ⊕ MultiSensorOut)}
    (h : EasyDelivers resolve s r)
    (hreads : (easyCodec resolve).Reads FusionSizes.headerDefault s r) :
    EasyRead resolve s r := by
  have hfits : FusionSizes.headerDefault.FieldsFit :=
    FusionSizes.shipped_small (c := FusionSizes.headerDefault) (by decide)
  obtain ⟨hissued, call, hcall, hread⟩ := hreads
  obtain ⟨⟨x | x, out⟩, a⟩ := s
  · obtain ⟨⟨packet, want | caps⟩, b⟩ := r
    · have hvalue := autoCodec_read hfits (s := ((x, out), a)) hissued h.sent h.sendable h.wanted
        hcall
      exact hread.trans (congrArg (Option.map Sum.inl) hvalue)
    · exact h.elim
  · obtain ⟨⟨packet, want | caps⟩, b⟩ := r
    · exact h.elim
    · have hvalue := multiCodec_read (s := ((x, out), a)) hissued h.sent h.call h.caps hcall
      obtain ⟨readings, hreadings, hout⟩ := hvalue
      exact ⟨_, hread.trans (congrArg (Option.map Sum.inr) hout), readings, hreadings, rfl⟩

/-- The stream of a call of either kind. -/
def callStream : SensorCall V ⊕ MultiSensorCall V → UInt32 × UInt8 :=
  Sum.elim (fun x => (x.sourceAid, x.tid)) fun x => (x.sourceAid, x.tid)

/-- What a call writes that the table takes a sensor of: any call for several does. -/
theorem EasyDelivers.kept {s : BodyCodec.Sent (SensorCall V ⊕ MultiSensorCall V)}
    {r : BodyCodec.Received (AutoWant ⊕ MultiSensorCaps) (AutoReading ⊕ MultiSensorOut)}
    (h : EasyDelivers resolve s r)
    (hk : ∀ x, s.1.1 = .inl x → keptSensors FusionSizes.headerDefault (x.body resolve) ≠ [])
    {call : FusionCall} (hcall : (easyCodec resolve).call s.1.1 = some call) :
    keptSensors FusionSizes.headerDefault call.fullBody ≠ [] := by
  obtain ⟨⟨x | x, out⟩, a⟩ := s
  · obtain ⟨body, hbody, rfl⟩ := Option.map_eq_some_iff.mp hcall
    have hkept := hk x rfl
    rw [← (sensorAutoBody_some hbody).1] at hkept
    exact hkept
  · obtain ⟨⟨packet, want | caps⟩, b⟩ := r
    · exact h.elim
    · obtain ⟨body, hbody, rfl⟩ := Option.map_eq_some_iff.mp hcall
      exact multiSensorBody_kept h.call hbody

/-- In any run of a context, whatever else it is called with: after a FULL, while all packets
of its stream arrive in order, once or several times in a row, each is decoded as the reading,
or as the node and the readings, it was encoded from. -/
theorem easy_readings_recovered {w w' : EasyWorld n V} {ops : List (EasyOp V)}
    {rt rt' : FusionState FusionSizes.headerDefault}
    {arrivals : List (Bytes × (AutoWant ⊕ MultiSensorCaps))}
    {s : BodyCodec.Sent (SensorCall V ⊕ MultiSensorCall V)}
    {sent : List (BodyCodec.Sent (SensorCall V ⊕ MultiSensorCall V))}
    {r : BodyCodec.Received (AutoWant ⊕ MultiSensorCaps) (AutoReading ⊕ MultiSensorOut)}
    {received : List (BodyCodec.Received (AutoWant ⊕ MultiSensorCaps)
      (AutoReading ⊕ MultiSensorOut))}
    (hst : Reachable w.ctx.txState) (hrt : Reachable rt)
    (hrun : run (easyWorldStep resolve) w ops = some w') (hsent : w'.sent = w.sent ++ s :: sent)
    (hreceived : trace easyDecodeStep rt arrivals = some (rt', r :: received))
    (hfull : s.2.2.outCmd = Cmd.dataFull)
    (hk : ∀ x, s.1.1 = .inl x → keptSensors FusionSizes.headerDefault (x.body resolve) ≠ [])
    (hroom : findOrAllocEntry rt (callStream s.1.1).1 (callStream s.1.1).2 ≠ none)
    (hfirst : EasyDelivers resolve s r)
    (horder : Along (EasyDelivers resolve) (some s)
      (sent.filter fun x => callStream x.1.1 = callStream s.1.1)
      (received.filter fun y => packetStream y.1.1 = some (callStream s.1.1))) :
    EasyRead resolve s r ∧
    Along (fun x y => EasyDelivers resolve x y ∧ EasyRead resolve x y) (some s)
      (sent.filter fun x => callStream x.1.1 = callStream s.1.1)
      (received.filter fun y => packetStream y.1.1 = some (callStream s.1.1)) := by
  have hc : FusionSizes.headerDefault ∈ FusionSizes.shipped := by decide
  have hfits : FusionSizes.headerDefault.FieldsFit := FusionSizes.shipped_small hc
  obtain ⟨calls, sent', htrace, hsent'⟩ := easyWorld_calls hrun
  rw [hsent', List.append_cancel_left_eq] at hsent
  subst hsent
  rw [easyDecodeStep_eq resolve] at hreceived
  obtain ⟨t, -, hstep, -⟩ := trace_first htrace
  have hissued : (easyCodec resolve).Issued FusionSizes.headerDefault s :=
    ⟨_, t, hst.stateOk hfits, hstep⟩
  obtain ⟨call, hcall, -⟩ := hfirst.delivers hissued
  have hstream : call.stream = callStream s.1.1 := (easyCodec resolve).call_stream hcall
  rw [← hstream] at hroom horder ⊢
  obtain ⟨hread, hrest⟩ := (easyCodec resolve).readings_recovered hc hst hrt
    (fun s r hissued (hok : EasyDelivers resolve s r) => hok.delivers hissued) htrace hreceived
    hcall hfull (hfirst.kept hk hcall) hroom hfirst horder
  exact ⟨hfirst.read hread, hrest.imp fun s r h => ⟨h.1, h.1.read h.2⟩⟩

end

/-! ## A pressure, its change, and then a humidity with the node -/

def singleSent (s : BodyCodec.Sent (SensorCall Int64)) :
    BodyCodec.Sent (SensorCall Int64 ⊕ MultiSensorCall Int64) := ((.inl s.1.1, s.1.2), s.2)

def singleRead (s : BodyCodec.Sent (SensorCall Int64)) :
    BodyCodec.Received (AutoWant ⊕ MultiSensorCaps) (AutoReading ⊕ MultiSensorOut) :=
  ((s.2.2.packet, .inl idAndValue), (autoArrived s).2.map (Prod.map .inl id))

def humidity : List (SensorInput Int64) :=
  [⟨ascii "H", ascii "OK", 55, ascii "%", none, none, none⟩]

def humidityCall : MultiSensorCall Int64 :=
  ⟨77, 3, 105, ascii "NODE_A", ascii "ONLINE", humidity, 128⟩

def humidityBody : Bytes :=
  (multiSensorBody .headerDefault (EasyContext.standardizeSensor pascals) humidityCall).getD []

def humiditySent : BodyCodec.Sent (SensorCall Int64 ⊕ MultiSensorCall Int64) :=
  ((.inr humidityCall, ⟨[], 0, 0⟩), true,
    ⟨packetFrame Cmd.dataFull 77 3 105 humidityBody, humidityBody.length + 16, Cmd.dataFull⟩)

def humidityRead :
    BodyCodec.Received (AutoWant ⊕ MultiSensorCaps) (AutoReading ⊕ MultiSensorOut) :=
  ((humiditySent.2.2.packet, .inr ⟨32, 16, 2⟩), some (.inr ⟨ascii "NODE_A", ascii "ONLINE",
    (humidity.mapM (SensorInput.reading (EasyContext.standardizeSensor pascals))).getD []⟩,
    frameMeta (multiSensorFusionCall .headerDefault humidityCall []) Cmd.dataFull
      humidityBody.length))

def easyOps : List (EasyOp Int64) :=
  [.setTid 3, .encodeMultiSensorAuto 102 humidity 128 ⟨[], 0, 0⟩, .setAid 77,
    .encodeSensorAuto 103 (ascii "P1") 101325 (ascii "Pa") 128 ⟨[], 0, 0⟩, .touchAid 1,
    .encodeSensorAuto 104 (ascii "P1") 101326 (ascii "Pa") 128 ⟨[], 0, 0⟩,
    .encodeMultiSensorAuto 105 humidity 128 ⟨[], 0, 0⟩]

set_option synthInstance.maxSize 512 in
theorem humidity_recovered :
    EasyRead pascals (singleSent firstPressure) (singleRead firstPressure) ∧
    Along (fun x y => EasyDelivers pascals x y ∧ EasyRead pascals x y)
      (some (singleSent firstPressure))
      ([singleSent changedPressure, humiditySent].filter fun x => callStream x.1.1 = (77, 3))
      ([singleRead changedPressure, humidityRead].filter fun y =>
        packetStream y.1.1 = some (77, 3)) := by
  have hrun : (run (easyWorldStep pascals) (easyStart 16 Int64) easyOps).map EasyWorld.sent =
      some [singleSent firstPressure, singleSent changedPressure, humiditySent] := by
    decide +kernel
  have hreceived : (trace easyDecodeStep staleTable
      ([singleRead firstPressure, singleRead changedPressure, humidityRead].map Prod.fst)).map
        Prod.snd = some [singleRead firstPressure, singleRead changedPressure, humidityRead] := by
    decide +kernel
  obtain ⟨w, hrun, hsent⟩ := Option.map_eq_some_iff.mp hrun
  obtain ⟨⟨rt, _⟩, hreceived, rfl⟩ := Option.map_eq_some_iff.mp hreceived
  have hfirst : EasyDelivers pascals (singleSent firstPressure) (singleRead firstPressure) :=
    ⟨rfl, rfl, pressureAt_sendable _ _ _, Or.inr (by decide), Or.inl rfl⟩
  have hchanged : EasyDelivers pascals (singleSent changedPressure) (singleRead changedPressure) :=
    ⟨rfl, rfl, pressureAt_sendable _ _ _, Or.inr (by decide), Or.inl rfl⟩
  have hhumidity : EasyDelivers pascals humiditySent humidityRead :=
    ⟨rfl, rfl, by decide +kernel, by decide +kernel⟩
  have hmine : ([singleSent changedPressure, humiditySent].filter fun x =>
      callStream x.1.1 = (77, 3)) = [singleSent changedPressure, humiditySent] := by
    decide +kernel
  have hmine' : ([singleRead changedPressure, humidityRead].filter fun y =>
      packetStream y.1.1 = some (77, 3)) = [singleRead changedPressure, humidityRead] := by
    decide +kernel
  have hkept : ∀ x, (singleSent firstPressure).1.1 = .inl x →
      keptSensors FusionSizes.headerDefault (x.body pascals) ≠ [] := by
    intro x hx
    cases hx
    decide +kernel
  refine easy_readings_recovered ⟨[], rfl⟩ ⟨_, staleTable_run⟩ hrun hsent hreceived rfl hkept
    (by decide +kernel) hfirst ?_
  have horder : Along (EasyDelivers pascals) (some (singleSent firstPressure))
      [singleSent changedPressure, humiditySent] [singleRead changedPressure, humidityRead] :=
    .next hchanged (.next hhumidity .done)
  rw [← hmine, ← hmine'] at horder
  exact horder

end Osfx
