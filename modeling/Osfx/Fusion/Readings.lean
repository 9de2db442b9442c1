import Osfx.Fusion.Recovery

/-!
# Readings over a recovered stream

The calls of `osfx_core_facade.c` that end in `_auto` put a body together, send it through
the fusion layer, and on the other side read the body that comes out. `BodyCodec` is what
they have in common. What `stream_recovers` says of bodies holds of what is read from them
(`readings_recovered`): after a FULL, each packet is answered with what is read from the
body it was sent for. Two applications that share a table are one as well (`sum`).
-/

namespace Osfx

open SlotTable Streams

/-- An application over the fusion layer: the stream of a call and the call it makes of the
fusion layer, where its checks pass; the size of the buffer for a body; and what is read from
a body. The last two go by what is asked for. -/
structure BodyCodec (Call Want Reading : Type) where
  stream : Call → UInt32 × UInt8
  call : Call → Option FusionCall
  outBodyCap : Want → Nat
  read : Want → Bytes → Option Reading
  call_stream : ∀ {x f}, call x = some f → f.stream = stream x

namespace BodyCodec

variable {Call Want Reading : Type} (codec : BodyCodec Call Want Reading) {c : FusionSizes}

/-- An encode call with what its output parameters hold before it. -/
def encodeStep (st : FusionState c) (x : Call × EncodeOut) :
    Option (FusionState c × EncodeAnswer) :=
  match codec.call x.1 with
  | none => some (st, false, x.2)
  | some call => Osfx.encodeStep st ⟨call, x.2⟩

/-- A packet, and what is asked for of it. -/
def decodeStep (st : FusionState c) (y : Bytes × Want) :
    Option (FusionState c × Option (Reading × PacketMeta)) :=
  (Osfx.decodeStep st ⟨y.1, codec.outBodyCap y.2⟩).map fun r =>
    (r.1, r.2.bind fun (body, pm) => (codec.read y.2 body).map fun out => (out, pm))

abbrev Sent (Call : Type) := (Call × EncodeOut) × EncodeAnswer

abbrev Received (Want Reading : Type) := (Bytes × Want) × Option (Reading × PacketMeta)

/-- The call returned 1, its packet arrives, and the buffer holds the body it was sent for. -/
def Delivers (c : FusionSizes) (s : Sent Call) (r : Received Want Reading) : Prop :=
  ∃ call, codec.call s.1.1 = some call ∧ SentOk (⟨call, s.1.2⟩, s.2) ∧ r.1.1 = s.2.2.packet ∧
    (expectedBody c call s.2.2.outCmd).length ≤ codec.outBodyCap r.1.2

/-- A sender has answered the call so. -/
def Issued (c : FusionSizes) (s : Sent Call) : Prop :=
  ∃ st t : FusionState c, StateOk st ∧ codec.encodeStep st s.1 = some (t, s.2)

/-- What is handed out is what is read from the body the packet was sent for. -/
def Reads (c : FusionSizes) (s : Sent Call) (r : Received Want Reading) : Prop :=
  codec.Issued c s ∧ ∃ call, codec.call s.1.1 = some call ∧
    r.2.map Prod.fst = codec.read r.1.2 (expectedBody c call s.2.2.outCmd)

/-! ## The watched entry -/

/-- What a call does to the entry of its stream. -/
def Sends (e : FusionEntry c) (s : Sent Call) (e' : FusionEntry c) : Prop :=
  codec.Issued c s ∧
    ∀ call, codec.call s.1.1 = some call → Osfx.Sends e (⟨call, s.1.2⟩, s.2) e'

/-- What a packet does to the entry of its stream. -/
def Receives (e : FusionEntry c) (r : Received Want Reading) (e' : FusionEntry c) : Prop :=
  ∃ a, Osfx.Receives e (⟨r.1.1, codec.outBodyCap r.1.2⟩, a) e' ∧
    r.2 = a.bind fun (body, pm) => (codec.read r.1.2 body).map fun out => (out, pm)

theorem decodeStep_some {st t : FusionState c} {y : Bytes × Want}
    {b : Option (Reading × PacketMeta)} (h : codec.decodeStep st y = some (t, b)) :
    ∃ a, Osfx.decodeStep st ⟨y.1, codec.outBodyCap y.2⟩ = some (t, a) ∧
      b = a.bind fun (body, pm) => (codec.read y.2 body).map fun out => (out, pm) := by
  obtain ⟨⟨u, a⟩, hstep, heq⟩ := Option.map_eq_some_iff.mp h
  cases heq
  exact ⟨a, hstep, rfl⟩

theorem encodeStep_watched (hc : c.Small) (k : UInt32 × UInt8) :
    Watched (codec.encodeStep (c := c)) codec.Sends (fun x => codec.stream x.1 = k) (Cached k) where
  ours := by
    rintro st e x t a hcached rfl hstep
    have hissued : codec.Issued c (x, a) := ⟨st, t, hcached.1, hstep⟩
    cases hcall : codec.call x.1 with
    | none =>
      simp only [encodeStep, hcall] at hstep
      cases hstep
      exact ⟨e, ⟨hissued, fun call h => by rw [hcall] at h; cases h⟩, hcached⟩
    | some call =>
      simp only [encodeStep, hcall] at hstep
      rw [← codec.call_stream hcall] at hcached ⊢
      obtain ⟨e', hsends, hcached'⟩ := encodeStep_own hc hcached hstep
      refine ⟨e', ⟨hissued, fun call' h => ?_⟩, hcached'⟩
      cases hcall.symm.trans h
      exact hsends
  others := by
    rintro st e x t a hcached hk hstep
    cases hcall : codec.call x.1 with
    | none =>
      simp only [encodeStep, hcall] at hstep
      cases hstep
      exact hcached
    | some call =>
      simp only [encodeStep, hcall] at hstep
      rw [← codec.call_stream hcall] at hk
      exact (Osfx.encodeStep_watched hc k).others st e _ t a hcached hk hstep

theorem decodeStep_watched (hc : c.FieldsFit) (k : UInt32 × UInt8) :
    Watched (codec.decodeStep (c := c)) codec.Receives (fun y => packetStream y.1 = some k)
      (Cached k) where
  ours := by
    rintro st e y t b hcached hk hstep
    obtain ⟨a, hstep, hb⟩ := codec.decodeStep_some hstep
    obtain ⟨e', hreceives, hcached'⟩ :=
      (Osfx.decodeStep_watched hc k).ours st e _ t a hcached hk hstep
    exact ⟨e', ⟨a, hreceives, hb⟩, hcached'⟩
  others := by
    rintro st e y t b hcached hk hstep
    obtain ⟨a, hstep, -⟩ := codec.decodeStep_some hstep
    exact (Osfx.decodeStep_watched hc k).others st e _ t a hcached hk hstep

/-- A body that is rebuilt is read as it was sent. -/
theorem reads_of_rebuilt {s : Sent Call} {r : Received Want Reading} {a : DecodeAnswer}
    {call : FusionCall} (hissued : codec.Issued c s) (hcall : codec.call s.1.1 = some call)
    (hr : r.2 = a.bind fun (body, pm) => (codec.read r.1.2 body).map fun out => (out, pm))
    (h : Rebuilt c (⟨call, s.1.2⟩, s.2) (⟨r.1.1, codec.outBodyCap r.1.2⟩, a)) :
    codec.Reads c s r := by
  obtain ⟨⟨body, pm⟩, ha, hbody⟩ := Option.map_eq_some_iff.mp h
  refine ⟨hissued, call, hcall, ?_⟩
  have ha' : a = some (body, pm) := ha
  rw [hr, ha', Option.bind_some, Option.map_map, ← hbody]
  exact Option.map_id'

/-- The last packet has been taken. -/
def Held (s : Sent Call) (e : FusionEntry c) : Prop :=
  codec.Issued c s ∧ ∃ call, codec.call s.1.1 = some call ∧ Osfx.Held (⟨call, s.1.2⟩, s.2) e

theorem mirrors (hc : c.FieldsFit) {ok : Sent Call → Received Want Reading → Prop}
    (hok : ∀ s r, codec.Issued c s → ok s r → codec.Delivers c s r) :
    Mirrors (codec.Sends (c := c)) codec.Receives Mirrored codec.Held ok (codec.Reads c) where
  next := by
    rintro e s e₁ e' r e₁' hsame ⟨hissued, hsends⟩ ⟨a, hreceives, hr⟩ hd
    obtain ⟨call, hcall, hsent, hpacket, hcap⟩ := hok s r hissued hd
    obtain ⟨hnext, hheld, hrebuilt⟩ := (stream_mirrors hc).next e _ e₁ e' _ e₁' hsame
      (hsends call hcall) hreceives ⟨hsent, hpacket, hcap⟩
    exact ⟨hnext, ⟨hissued, call, hcall, hheld⟩, codec.reads_of_rebuilt hissued hcall hr hrebuilt⟩
  again := by
    rintro e s e' r e₁' hsame ⟨hissued, call, hcall, hheld⟩ ⟨a, hreceives, hr⟩ hd
    obtain ⟨call', hcall', hsent, hpacket, hcap⟩ := hok s r hissued hd
    cases hcall.symm.trans hcall'
    obtain ⟨hnext, hrebuilt⟩ := (stream_mirrors hc).again e _ e' _ e₁' hsame hheld hreceives
      ⟨hsent, hpacket, hcap⟩
    exact ⟨hnext, codec.reads_of_rebuilt hissued hcall hr hrebuilt⟩

/-- After a FULL with a sensor, while all packets of the stream arrive in order, each is
answered with what is read from the body it was sent for. -/
theorem readings_recovered (hc : c ∈ FusionSizes.shipped) {st st' rt rt' : FusionState c}
    (hst : Reachable st) (hrt : Reachable rt) {ok : Sent Call → Received Want Reading → Prop}
    (hok : ∀ s r, codec.Issued c s → ok s r → codec.Delivers c s r)
    {calls : List (Call × EncodeOut)} {arrivals : List (Bytes × Want)} {s : Sent Call}
    {sent : List (Sent Call)}
    {r : Received Want Reading} {received : List (Received Want Reading)} {call : FusionCall}
    (hsent : trace codec.encodeStep st calls = some (st', s :: sent))
    (hreceived : trace codec.decodeStep rt arrivals = some (rt', r :: received))
    (hcall : codec.call s.1.1 = some call) (hfull : s.2.2.outCmd = Cmd.dataFull)
    (hk : keptSensors c call.fullBody ≠ [])
    (hroom : findOrAllocEntry rt call.sourceAid call.tid ≠ none) (hfirst : ok s r)
    (horder : Along ok (some s) (sent.filter fun x => codec.stream x.1.1 = call.stream)
      (received.filter fun y => packetStream y.1.1 = some call.stream)) :
    codec.Reads c s r ∧ Along (fun x y => ok x y ∧ codec.Reads c x y) (some s)
      (sent.filter fun x => codec.stream x.1.1 = call.stream)
      (received.filter fun y => packetStream y.1.1 = some call.stream) := by
  have hsmall := FusionSizes.shipped_small hc
  have hfits : c.FieldsFit := hsmall
  obtain ⟨t, calls, hstep, hsent⟩ := trace_first hsent
  obtain ⟨u, arrivals, hstep', hreceived⟩ := trace_first hreceived
  obtain ⟨a, hstep', ha⟩ := codec.decodeStep_some hstep'
  have hissued : codec.Issued c s := ⟨st, t, hst.stateOk hfits, hstep⟩
  obtain ⟨call', hcall', hdelivers⟩ := hok _ _ hissued hfirst
  cases hcall.symm.trans hcall'
  simp only [encodeStep, hcall] at hstep
  obtain ⟨e, e', hcached, hcached', hmirrored, hheld, hrebuilt⟩ :=
    full_mirrors (s := (⟨call, s.1.2⟩, s.2)) (r := (⟨r.1.1, codec.outBodyCap r.1.2⟩, a)) hsmall
      (hst.stateOk hfits) (hrt.stateOk hfits) hstep hstep' hfull hk hroom hdelivers
  obtain ⟨_, hchain, -⟩ := watched_run (codec.encodeStep_watched hsmall _) hcached hsent
  obtain ⟨_, hchain', -⟩ := watched_run (codec.decodeStep_watched hfits _) hcached' hreceived
  have hlast : ∀ x ∈ some s, codec.Held x e :=
    fun x hx => Option.mem_some_iff.mp hx ▸ ⟨hissued, call, hcall, hheld⟩
  exact ⟨codec.reads_of_rebuilt hissued hcall ha hrebuilt,
    mirrored (codec.mirrors hfits hok) horder hmirrored hlast hchain hchain'⟩

/-! ## Two applications over one table -/

section
variable {Call' Want' Reading' : Type}

/-- What is asked for says which of the two reads a body. -/
def sum (codec : BodyCodec Call Want Reading) (codec' : BodyCodec Call' Want' Reading') :
    BodyCodec (Call ⊕ Call') (Want ⊕ Want') (Reading ⊕ Reading') where
  stream := Sum.elim codec.stream codec'.stream
  call := Sum.elim codec.call codec'.call
  outBodyCap := Sum.elim codec.outBodyCap codec'.outBodyCap
  read := Sum.elim (fun want body => (codec.read want body).map .inl)
    (fun want body => (codec'.read want body).map .inr)
  call_stream := by
    rintro (x | x) f h
    · exact codec.call_stream h
    · exact codec'.call_stream h

variable {codec} {codec' : BodyCodec Call' Want' Reading'} {st : FusionState c} {packet : Bytes}

theorem sum_decodeStep_inl {want : Want} :
    (codec.sum codec').decodeStep st (packet, .inl want) =
      (codec.decodeStep st (packet, want)).map fun r => (r.1, r.2.map (Prod.map .inl id)) := by
  simp only [decodeStep, sum, Sum.elim_inl, Option.map_map]
  congr 1
  funext ⟨t, a⟩
  cases a with
  | none => rfl
  | some a =>
    simp only [Option.bind_some, Function.comp_apply]
    cases codec.read want a.1 <;> rfl

theorem sum_decodeStep_inr {want : Want'} :
    (codec.sum codec').decodeStep st (packet, .inr want) =
      (codec'.decodeStep st (packet, want)).map fun r => (r.1, r.2.map (Prod.map .inr id)) := by
  simp only [decodeStep, sum, Sum.elim_inr, Option.map_map]
  congr 1
  funext ⟨t, a⟩
  cases a with
  | none => rfl
  | some a =>
    simp only [Option.bind_some, Function.comp_apply]
    cases codec'.read want a.1 <;> rfl

end

end BodyCodec

end Osfx
