import Osfx.Fusion.Table
import Osfx.Lib.Streams

/-!
# Streams do not interfere

`streamEncode` is an encoder for one stream: what it keeps is the cached entry. The
table behaves as one such encoder for each stream, as long as there is room for all of
them. `streams_independent` says what follows for a run: the calls of a stream are
answered as if there had been no others.
-/

namespace Osfx

open SlotTable Streams

variable {c : FusionSizes}

def FusionCall.stream (call : FusionCall) : UInt32 × UInt8 := (call.sourceAid, call.tid)

/-- A call, and what its output parameters hold before it. -/
structure EncodeCall where
  call : FusionCall
  out : EncodeOut
  deriving DecidableEq

/-- The return value of a call and what it leaves in its output parameters. -/
abbrev EncodeAnswer := Bool × EncodeOut

def encodeStep (st : FusionState c) (x : EncodeCall) : Option (FusionState c × EncodeAnswer) :=
  (fusionEncode st x.call x.out).map fun r => (r.state, r.ret, r.out)

/-! ## The encoder of one stream -/

def frameAnswer (x : EncodeCall) (cmd : UInt8) (bodyToSend : Bytes) : EncodeAnswer :=
  let pkt := packetEncodeFull cmd x.call.sourceAid x.call.tid x.call.timestampRaw bodyToSend
    x.call.outPacketCap
  if pkt.2 ≤ 0 then (false, { x.out with outPacket := pkt.1 }) else (true, ⟨pkt.1, pkt.2, cmd⟩)

def streamEncode (cached : Option (FusionEntry c)) (x : EncodeCall) :
    Option (Option (FusionEntry c) × EncodeAnswer) :=
  if x.call.fullBody = [] then some (cached, false, x.out)
  else do
    let p ← parseBodySlots c x.call.fullBody c.maxSensors
    if p.sensorCount = 0 then some (cached, frameAnswer x Cmd.dataFull x.call.fullBody)
    else do
      let e := cached.getD (freshEntry c x.call.sourceAid x.call.tid)
      let (e, cmd, bodyToSend) ← encodeEntry e p x.call.fullBody
      some (some e, frameAnswer x cmd bodyToSend)

theorem sendFrame_eq (st : FusionState c) (x : EncodeCall) (cmd : UInt8) (body : Bytes) :
    sendFrame st x.call cmd body x.out =
      ⟨(frameAnswer x cmd body).1, st, (frameAnswer x cmd body).2⟩ := by
  simp only [sendFrame, frameAnswer]
  split <;> rfl

/-- An entry stays the entry of its stream. -/
theorem encodeEntry_key {e e' : FusionEntry c} {p : Parsed} {fullBody body : Bytes} {cmd : UInt8}
    (h : encodeEntry e p fullBody = some (e', cmd, body)) :
    e'.key = e.key ∧ e'.used = e.used := by
  simp only [encodeEntry, Option.bind_eq_bind, Option.bind_eq_some_iff] at h
  obtain ⟨changed, -, h⟩ := h
  split at h
  · obtain ⟨e₁, hrefresh, he⟩ := Option.bind_eq_some_iff.mp h
    cases he
    simp only [refreshEntry, Option.bind_eq_bind, Option.bind_eq_some_iff] at hrefresh
    obtain ⟨tagNames, -, lastVals, -, he⟩ := hrefresh
    cases he
    exact ⟨rfl, rfl⟩
  · obtain ⟨differs, -, h⟩ := Option.bind_eq_some_iff.mp h
    split at h
    · obtain ⟨⟨lastVals, mask, changed⟩, -, he⟩ := Option.bind_eq_some_iff.mp h
      cases he
      exact ⟨rfl, rfl⟩
    · cases h
      exact ⟨rfl, rfl⟩

/-! ## What a call does to the table -/

/-- The entry of a stream, and the slot it is in. -/
def cacheSlot (st : FusionState c) (k : UInt32 × UInt8) :
    Option (Fin c.maxEntries × FusionEntry c) :=
  (findEntry st k.1 k.2).map fun i => (i, st.get i)

def streamEntry (st : FusionState c) (k : UInt32 × UInt8) : Option (FusionEntry c) :=
  entry FusionEntry.used FusionEntry.key st k

theorem EntryOf.slotOf {st : FusionState c} {x : EncodeCall} {i : Fin c.maxEntries}
    {e : FusionEntry c} (h : EntryOf st x.call.sourceAid x.call.tid i e) :
    SlotOf FusionEntry.used FusionEntry.key st x.call.stream i := by
  cases h with
  | cached hf => exact Or.inl hf
  | fresh hf hu => exact Or.inr ⟨hf, hu⟩

theorem EntryOf.eq_getD {st : FusionState c} {x : EncodeCall} {i : Fin c.maxEntries}
    {e : FusionEntry c} (h : EntryOf st x.call.sourceAid x.call.tid i e) :
    e = (streamEntry st x.call.stream).getD (freshEntry c x.call.sourceAid x.call.tid) := by
  cases h with
  | cached hf =>
    rw [findEntry] at hf
    rw [streamEntry, entry, FusionCall.stream, hf, Option.map_some, Option.getD_some]
  | fresh hf _ =>
    rw [findEntry] at hf
    rw [streamEntry, entry, FusionCall.stream, hf, Option.map_none, Option.getD_none]

/-- The entry a call writes, and where. -/
inductive Wrote (st : FusionState c) (x : EncodeCall) : FusionState c → Prop
  | nothing : Wrote st x st
  | entry {i e} : SlotOf FusionEntry.used FusionEntry.key st x.call.stream i →
      e.key = x.call.stream → e.used = true → Wrote st x (st.set i e i.isLt)

theorem encodeStep_wrote {st st' : FusionState c} {x : EncodeCall} {a : EncodeAnswer}
    (h : encodeStep st x = some (st', a)) : Wrote st x st' := by
  obtain ⟨r, hr, heq⟩ := Option.map_eq_some_iff.mp h
  cases heq
  unfold fusionEncode at hr
  split at hr
  · cases hr
    exact .nothing
  obtain ⟨p, -, hr⟩ := Option.bind_eq_some_iff.mp hr
  split at hr
  · cases hr
    rw [sendFrame_state]
    exact .nothing
  split at hr
  · cases hr
    exact .nothing
  · rename_i i e he
    obtain ⟨⟨e', cmd, body⟩, hencode, hr⟩ := Option.bind_eq_some_iff.mp hr
    cases hr
    have hentry := findOrAllocEntry_some he
    obtain ⟨hkey, hused⟩ := encodeEntry_key hencode
    rw [sendFrame_state]
    exact .entry hentry.slotOf (hkey.trans hentry.key) (hused.trans hentry.used)

/-- The entries of all other streams stay where they are and as they are. -/
theorem cacheSlot_wrote {st st' : FusionState c} {x : EncodeCall} (h : Wrote st x st')
    {k : UInt32 × UInt8} (hk : k ≠ x.call.stream) : cacheSlot st' k = cacheSlot st k := by
  cases h with
  | nothing => rfl
  | entry hslot hkey hused =>
    rw [← hkey] at hslot hk
    have hsame := entry_set hslot hused k
    rw [if_neg hk] at hsame
    have hlookup := lookup_set_other hslot hk
    unfold cacheSlot findEntry
    unfold entry at hsame
    rw [hlookup] at hsame ⊢
    cases hl : lookup FusionEntry.used FusionEntry.key st k with
    | none => rfl
    | some j =>
      rw [hl, Option.map_some, Option.map_some, Option.some.injEq] at hsame
      rw [Option.map_some, Option.map_some, hsame]

theorem streamEntry_eq (st : FusionState c) (k : UInt32 × UInt8) :
    streamEntry st k = (cacheSlot st k).map Prod.snd := by
  rw [streamEntry, entry, cacheSlot, findEntry, Option.map_map]
  rfl

/-! ## Separation -/

/-- All entries are of known streams, and each stream has one. -/
structure Within (streams : Finset (UInt32 × UInt8)) (st : FusionState c) : Prop where
  distinct : Distinct FusionEntry.used FusionEntry.key st
  known : ∀ i : Fin c.maxEntries, (st.get i).used = true → (st.get i).key ∈ streams

theorem within_init (streams : Finset (UInt32 × UInt8)) : Within streams (fusionStateInit c) where
  distinct := distinct_replicate rfl
  known := by
    intro i hi
    rw [fusionStateInit, get_replicate] at hi
    cases hi

section
variable {streams : Finset (UInt32 × UInt8)} {st : FusionState c} {x : EncodeCall}

theorem within_wrote (hst : Within streams st) (hx : x.call.stream ∈ streams)
    {st' : FusionState c} (h : Wrote st x st') : Within streams st' := by
  cases h with
  | nothing => exact hst
  | @entry i e hslot hkey hused =>
    rw [← hkey] at hslot hx
    refine ⟨distinct_set_slot hst.distinct hslot, ?_⟩
    exact forall_set (P := fun _ (e : FusionEntry c) => e.used = true → e.key ∈ streams)
      (fun _ => hx) fun j _ => hst.known j

/-- There is an entry for each known stream, or room for it. -/
theorem findOrAllocEntry_isSome (hroom : streams.card ≤ c.maxEntries) (hst : Within streams st)
    (hx : x.call.stream ∈ streams) :
    ∃ i e, findOrAllocEntry st x.call.sourceAid x.call.tid = some (i, e) := by
  unfold findOrAllocEntry
  cases hf : findEntry st x.call.sourceAid x.call.tid with
  | some i => exact ⟨i, st.get i, rfl⟩
  | none =>
    obtain ⟨i, hi⟩ := vacant_of_room hst.distinct hst.known hroom hx hf
    rw [allocEntry, hi]
    exact ⟨i, _, rfl⟩

/-- A call is answered by the encoder of its stream. -/
theorem encodeStep_eq (hroom : streams.card ≤ c.maxEntries) (hst : Within streams st)
    (hx : x.call.stream ∈ streams) :
    (encodeStep st x).map (fun r => (streamEntry r.1 x.call.stream, r.2)) =
      streamEncode (streamEntry st x.call.stream) x := by
  unfold encodeStep fusionEncode streamEncode
  split
  · rfl
  cases hp : parseBodySlots c x.call.fullBody c.maxSensors with
  | none => rfl
  | some p =>
    simp only [Option.bind_eq_bind, Option.bind_some]
    split
    · simp only [Option.map_some, sendFrame_eq]
    · obtain ⟨i, e, he⟩ := findOrAllocEntry_isSome hroom hst hx
      have hentry := findOrAllocEntry_some he
      rw [← hentry.eq_getD]
      simp only [he]
      cases hencode : encodeEntry e p x.call.fullBody with
      | none => rfl
      | some r =>
        obtain ⟨e', cmd, body⟩ := r
        obtain ⟨hkey, hused⟩ := encodeEntry_key hencode
        have hkey' : e'.key = x.call.stream := hkey.trans hentry.key
        have hslot := hentry.slotOf
        rw [← hkey'] at hslot ⊢
        have hwritten := entry_set hslot (hused.trans hentry.used) e'.key
        rw [if_pos rfl] at hwritten
        simp only [Option.bind_some, Option.map_some, sendFrame_eq, streamEntry, hwritten]

end

theorem encode_separable {streams : Finset (UInt32 × UInt8)}
    (hroom : streams.card ≤ c.maxEntries) :
    Separable (encodeStep (c := c)) streamEncode (fun x => x.call.stream) streamEntry
      (Within streams) fun x => x.call.stream ∈ streams where
  agrees := fun _ _ hst hx => encodeStep_eq hroom hst hx
  others := by
    intro st x st' a _ _ h k hk
    rw [streamEntry_eq, streamEntry_eq, cacheSlot_wrote (encodeStep_wrote h) hk]
  keeps := fun _ _ _ _ hst hx h => within_wrote hst hx (encodeStep_wrote h)

/-- In a run of calls of no more streams than the table has entries, the calls of each
stream return and send what they would alone; and no call, in any state, touches the entry
of another stream. -/
theorem streams_independent {streams : Finset (UInt32 × UInt8)}
    (hroom : streams.card ≤ c.maxEntries) {calls : List EncodeCall}
    (hcalls : ∀ x ∈ calls, x.call.stream ∈ streams) {st : FusionState c}
    {log : List (EncodeCall × EncodeAnswer)}
    (hrun : trace encodeStep (fusionStateInit c) calls = some (st, log)) :
    (∀ k, ∃ alone, trace encodeStep (fusionStateInit c)
        (calls.filter fun x => x.call.stream = k) =
      some (alone, log.filter fun r => r.1.call.stream = k)) ∧
    ∀ (st₁ st₂ : FusionState c) (x : EncodeCall) (a : EncodeAnswer),
      encodeStep st₁ x = some (st₂, a) →
      ∀ k, k ≠ x.call.stream → cacheSlot st₂ k = cacheSlot st₁ k := by
  constructor
  · intro k
    obtain ⟨alone, halone, -⟩ :=
      (encode_separable hroom).trace_alone (within_init streams) hcalls hrun k
    exact ⟨alone, halone⟩
  · intro st₁ st₂ x a h k hk
    exact cacheSlot_wrote (encodeStep_wrote h) hk

/-- Two calls of one stream, and one of another between them. -/
def threeCalls : List EncodeCall :=
  [⟨⟨1, 1, 8, ascii "A.U.1|T>m:v|", 512⟩, ⟨[], 0, 0⟩⟩,
    ⟨⟨2, 1, 8, ascii "B.U.1|T>m:w|", 512⟩, ⟨[], 0, 0⟩⟩,
    ⟨⟨1, 1, 9, ascii "A.U.1|T>m:v|", 512⟩, ⟨[], 0, 0⟩⟩]

theorem three_calls_independent : ∃ st log alone,
    trace encodeStep (fusionStateInit FusionSizes.headerDefault) threeCalls = some (st, log) ∧
    trace encodeStep (fusionStateInit FusionSizes.headerDefault)
        (threeCalls.filter fun x => x.call.stream = (1, 1)) =
      some (alone, log.filter fun r => r.1.call.stream = (1, 1)) := by
  have hsome : (trace encodeStep (fusionStateInit FusionSizes.headerDefault)
      threeCalls).isSome = true := by decide +kernel
  have hroom : ({(1, 1), (2, 1)} : Finset (UInt32 × UInt8)).card ≤
      FusionSizes.headerDefault.maxEntries := by decide
  have hcalls : ∀ x ∈ threeCalls,
      x.call.stream ∈ ({(1, 1), (2, 1)} : Finset (UInt32 × UInt8)) := by decide
  obtain ⟨⟨st, log⟩, hrun⟩ := Option.isSome_iff_exists.mp hsome
  obtain ⟨alone, halone⟩ := (streams_independent hroom hcalls hrun).1 (1, 1)
  exact ⟨st, log, alone, hrun, halone⟩

end Osfx
