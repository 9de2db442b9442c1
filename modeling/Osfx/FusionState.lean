import Osfx.Lib.Cell
import Osfx.Lib.SlotTable
import Osfx.Lib.Text
import Osfx.FusionPacket

/-!
# The fusion table

`osfx_fusion_state.c`: the table of cached streams, the encoder that answers a
body with a FULL, DIFF or HEART packet, and the decoder that follows it. A
`tag_names` or `last_vals` row and its length, two arrays in the source, are one
`Cell`. An access past the end of one of the arrays has no meaning in C: it is
`none` here, and a call that makes one has no result.
-/

namespace Osfx

open Numeral SlotTable Text

def bar : UInt8 := 124
def dot : UInt8 := 46
def gt : UInt8 := 62
def colon : UInt8 := 58

theorem bar_not_mem_decimal (n : Nat) : bar ∉ decimal n :=
  fun hb => absurd (decimal_digits hb).2 (by decide)

theorem dot_not_mem_decimal (n : Nat) : dot ∉ decimal n :=
  fun hb => absurd (decimal_digits hb).1 (by decide)

@[ext] structure FusionEntry (c : FusionSizes) where
  sourceAid : UInt32
  tid : UInt8
  sensorCount : UInt8
  valCount : UInt8
  used : Bool
  sigBase : Vector UInt8 c.maxPrefix
  tagNames : Vector (Cell c.maxTagLen) c.maxSensors
  lastVals : Vector (Cell c.maxValLen) c.maxVals
  deriving DecidableEq

abbrev FusionState (c : FusionSizes) := Vector (FusionEntry c) c.maxEntries

variable {c : FusionSizes}

/-- An entry of all zero bytes. -/
def FusionEntry.zero (c : FusionSizes) : FusionEntry c :=
  ⟨0, 0, 0, 0, false, Vector.replicate _ 0, Vector.replicate _ (Cell.zero _),
    Vector.replicate _ (Cell.zero _)⟩

def fusionStateInit (c : FusionSizes) : FusionState c := Vector.replicate _ (FusionEntry.zero c)

/-! ## parse_body_slots -/

/-- The out parameters of `parse_body_slots`: the header up to its last dot, the
tags, and the slots META_0, VAL_0, META_1, VAL_1, ... in body order. The returned
sensor count is the number of tags. -/
structure Parsed where
  sigBase : Bytes
  tagNames : List Bytes
  slots : List Bytes
  deriving DecidableEq, Repr

def Parsed.empty : Parsed := ⟨[], [], []⟩

def Parsed.sensorCount (p : Parsed) : Nat := p.tagNames.length

/-- TAG, META and VAL of a segment the cache can hold: cut at the first '>' and
then at the last ':', none of the three empty or too long. -/
def parseSegment (c : FusionSizes) (seg : Bytes) : Option (Bytes × Bytes × Bytes) :=
  match cutFirst gt seg with
  | none => none
  | some (tag, rest) =>
    match cutLast colon rest with
    | none => none
    | some (metaText, val) =>
      if tag = [] ∨ c.maxTagLen ≤ tag.length ∨ metaText = [] ∨ c.maxValLen ≤ metaText.length ∨
          val = [] ∨ c.maxValLen ≤ val.length then none
      else some (tag, metaText, val)

/-- Fill the next row of an array of `cap` rows. -/
def pushRow (cap : Nat) (rows : List Bytes) (b : Bytes) : Option (List Bytes) :=
  if rows.length < cap then some (rows ++ [b]) else none

/-- The loop over the segments behind the header. -/
def parseSegments (c : FusionSizes) (maxSensors : Nat) : List Bytes → Parsed → Option Parsed
  | [], p => some p
  | seg :: segs, p =>
    if p.sensorCount < maxSensors then
      match parseSegment c seg with
      | none => parseSegments c maxSensors segs p
      | some (tag, metaText, val) => do
        let tagNames ← pushRow c.maxSensors p.tagNames tag
        let slots ← pushRow c.maxVals p.slots metaText
        let slots ← pushRow c.maxVals slots val
        parseSegments c maxSensors segs ⟨p.sigBase, tagNames, slots⟩
    else some p

def parseBodySlots (c : FusionSizes) (body : Bytes) (maxSensors : Nat) : Option Parsed :=
  match cutFirst bar body with
  | none => some .empty
  | some (header, rest) =>
    match cutLast dot header with
    | none => some .empty
    | some (name, _) =>
      if c.maxPrefix < name.length + 2 then some .empty
      else parseSegments c maxSensors (rest.splitOn bar) ⟨name ++ [dot], [], []⟩

/-! ## reconstruct_body -/

/-- The sensor loop, from sensor `i` on with `k` to go. `[]` is a return of 0. -/
def rebuildSensors (e : FusionEntry c) (outCap : Nat) : Nat → Nat → Bytes → Option Bytes
  | 0, _, out => some out
  | k + 1, i, out => do
    let tag ← e.tagNames[i]?
    let metaCell ← e.lastVals[i * 2]?
    let val ← e.lastVals[i * 2 + 1]?
    if out.length + tag.len.toNat + 1 + metaCell.len.toNat + 1 + val.len.toNat + 1 > outCap then
      some []
    else
      rebuildSensors e outCap k (i + 1)
        (out ++ tag.bytes ++ [gt] ++ metaCell.bytes ++ [colon] ++ val.bytes ++ [bar])

/-- `sig_base[0] == '\0'`. -/
def FusionEntry.sigEmpty (e : FusionEntry c) : Bool := e.sigBase.toList.headD 0 == 0

/-- `reconstruct_body`: the bytes written, `[]` if it returns 0. -/
def reconstructBody (e : FusionEntry c) (timestampRaw : UInt64) (outCap : Nat) : Option Bytes :=
  if outCap = 0 ∨ e.sigEmpty ∨ e.sensorCount = 0 then some []
  else
    let sbl := strnlen e.sigBase
    if sbl + 1 > outCap then some []
    else
      let ts := decimal timestampRaw.toNat
      if sbl + ts.length + 1 > outCap then some []
      else rebuildSensors e outCap e.sensorCount.toNat 0 (e.sigBase.toList.take sbl ++ ts ++ [bar])

/-! ## The entry of a stream -/

def FusionEntry.key (e : FusionEntry c) : UInt32 × UInt8 := (e.sourceAid, e.tid)

/-- `find_entry`. -/
def findEntry (st : FusionState c) (aid : UInt32) (tid : UInt8) : Option (Fin c.maxEntries) :=
  lookup FusionEntry.used FusionEntry.key st (aid, tid)

/-- `alloc_entry`: the slot taken and the entry put there. -/
def allocEntry (st : FusionState c) (aid : UInt32) (tid : UInt8) :
    Option (Fin c.maxEntries × FusionEntry c) :=
  (vacant FusionEntry.used st).map fun i =>
    (i, { FusionEntry.zero c with used := true, sourceAid := aid, tid := tid })

/-- `find_entry`, and `alloc_entry` where it finds nothing. -/
def findOrAllocEntry (st : FusionState c) (aid : UInt32) (tid : UInt8) :
    Option (Fin c.maxEntries × FusionEntry c) :=
  match findEntry st aid tid with
  | some i => some (i, st.get i)
  | none => allocEntry st aid tid

/-- Some cell, counting from `i`, differs from the text it is compared with. -/
def anyDiffers {m k : Nat} (cells : Vector (Cell m) k) : Nat → List Bytes → Option Bool
  | _, [] => some false
  | i, b :: bs => do
    let cell ← cells[i]?
    if cell.differs b then some true else anyDiffers cells (i + 1) bs

/-- Store texts in successive cells from `i` on. -/
def storeRows {m k : Nat} : Vector (Cell m) k → Nat → List Bytes → Option (Vector (Cell m) k)
  | cells, _, [] => some cells
  | cells, i, b :: bs =>
    if h : i < k then storeRows (cells.set i (cells[i].store b)) (i + 1) bs else none

/-- Whether the template structure of the body differs from the cached one. -/
def structChanged (e : FusionEntry c) (p : Parsed) : Option Bool :=
  if e.sigEmpty ∨ e.valCount.toNat ≠ p.sensorCount * 2 ∨ strnlen e.sigBase ≠ p.sigBase.length ∨
      e.sigBase.toList.take p.sigBase.length ≠ p.sigBase then some true
  else anyDiffers e.tagNames 0 p.tagNames

/-- Overwrite the cached entry with a parsed body, as both sides do on FULL. -/
def refreshEntry (e : FusionEntry c) (p : Parsed) : Option (FusionEntry c) := do
  let tagNames ← storeRows e.tagNames 0 p.tagNames
  let lastVals ← storeRows e.lastVals 0 p.slots
  some { e with
    sigBase := memcpy e.sigBase (p.sigBase ++ [0])
    sensorCount := UInt8.ofNat p.sensorCount
    valCount := UInt8.ofNat (p.sensorCount * 2)
    tagNames := tagNames
    lastVals := lastVals }

/-! ## osfx_fusion_encode -/

/-- The DIFF loop from slot `i` on: the updated cells, the mask (a `uint32_t`) and
the length-prefixed new texts of the slots that changed. -/
def diffSlots {m k : Nat} :
    Vector (Cell m) k → Nat → List Bytes → Nat → Bytes → Option (Vector (Cell m) k × Nat × Bytes)
  | cells, _, [], mask, out => some (cells, mask, out)
  | cells, i, b :: bs, mask, out =>
    if h : i < k then
      if cells[i].differs b then
        diffSlots (cells.set i (cells[i].store b)) (i + 1) bs (mask ||| 1 <<< i)
          (out ++ lenU8 b :: b.take (lenU8 b).toNat)
      else diffSlots cells (i + 1) bs mask out
    else none

/-- The entry updated for a parsed body, the command chosen and the body to send. -/
def encodeEntry (e : FusionEntry c) (p : Parsed) (fullBody : Bytes) :
    Option (FusionEntry c × UInt8 × Bytes) := do
  if ← structChanged e p then
    some (← refreshEntry e p, Cmd.dataFull, fullBody)
  else if ← anyDiffers e.lastVals 0 p.slots then
    let (lastVals, mask, changed) ← diffSlots e.lastVals 0 p.slots 0 []
    let maskLen := (p.sensorCount * 2 + 7) / 8
    some ({ e with lastVals := lastVals }, Cmd.dataDiff, beBytes maskLen mask ++ changed)
  else
    some (e, Cmd.dataHeart, [])

/-- The arguments of one `osfx_fusion_encode` call. -/
structure FusionCall where
  sourceAid : UInt32
  tid : UInt8
  timestampRaw : UInt64
  fullBody : Bytes
  outPacketCap : Nat
  deriving DecidableEq, Repr

/-- What a call leaves in `out_packet`, `*out_packet_len` and `*out_cmd`. -/
structure EncodeOut where
  outPacket : Bytes
  outPacketLen : Int
  outCmd : UInt8
  deriving DecidableEq, Repr

/-- The packet as the caller gets it: `out_packet[0 .. *out_packet_len)`. -/
def EncodeOut.packet (o : EncodeOut) : Bytes := o.outPacket.take o.outPacketLen.toNat

structure EncodeResult (c : FusionSizes) where
  ret : Bool
  state : FusionState c
  out : EncodeOut
  deriving DecidableEq

/-- Frame the body to send; only a positive length is a success. -/
def sendFrame (st : FusionState c) (call : FusionCall) (cmd : UInt8) (bodyToSend : Bytes)
    (out : EncodeOut) : EncodeResult c :=
  let pkt := packetEncodeFull cmd call.sourceAid call.tid call.timestampRaw bodyToSend
    call.outPacketCap
  if pkt.2 ≤ 0 then ⟨false, st, { out with outPacket := pkt.1 }⟩
  else ⟨true, st, ⟨pkt.1, pkt.2, cmd⟩⟩

def fusionEncode (st : FusionState c) (call : FusionCall) (out : EncodeOut) :
    Option (EncodeResult c) :=
  if call.fullBody = [] then some ⟨false, st, out⟩
  else do
    let p ← parseBodySlots c call.fullBody c.maxSensors
    if p.sensorCount = 0 then
      -- Not a template body: an uncached FULL packet.
      some (sendFrame st call Cmd.dataFull call.fullBody out)
    else
      match findOrAllocEntry st call.sourceAid call.tid with
      | none => some ⟨false, st, out⟩
      | some (i, e) => do
        let (e, cmd, bodyToSend) ← encodeEntry e p call.fullBody
        some (sendFrame (st.set i e i.isLt) call cmd bodyToSend out)

/-! ## osfx_fusion_decode_apply -/

/-- The slot loop of a DIFF, from slot `j` on with `k` to go: the cells written so
far, and whether every changed slot was well formed. -/
def applySlots {m n : Nat} (mask : Nat) :
    Nat → Nat → Bytes → Vector (Cell m) n → Option (Vector (Cell m) n × Bool)
  | 0, _, _, cells => some (cells, true)
  | k + 1, j, body, cells =>
    if mask.testBit j then
      match body with
      | [] => some (cells, false)
      | len :: body =>
        if body.length < len.toNat ∨ m ≤ len.toNat then some (cells, false)
        else if h : j < n then
          applySlots mask k (j + 1) (body.drop len.toNat)
            (cells.set j (cells[j].store (body.take len.toNat)))
        else none
    else applySlots mask k (j + 1) body cells

/-- The state afterwards, and the body and metadata handed out on a return of 1. -/
structure DecodeResult (c : FusionSizes) where
  state : FusionState c
  out : Option (Bytes × PacketMeta)
  deriving DecidableEq

/-- Cache the parse of a FULL body, if it has sensors and there is an entry for it. -/
def learnFull (st : FusionState c) (pm : PacketMeta) (p : Parsed) : Option (FusionState c) :=
  if p.sensorCount > 0 then
    match findOrAllocEntry st pm.sourceAid pm.tid with
    | none => some st
    | some (i, e) => (refreshEntry e p).map fun e => st.set i e i.isLt
  else some st

/-- Rebuild the text of an updated entry for the caller. -/
def deliverEntry (st : FusionState c) (e : FusionEntry c) (pm : PacketMeta) (outBodyCap : Nat) :
    Option (DecodeResult c) :=
  (reconstructBody e pm.timestampRaw outBodyCap).map fun text =>
    ⟨st, if text = [] then none else some (text, pm)⟩

def decodeDiff (st : FusionState c) (i : Fin c.maxEntries) (pm : PacketMeta) (body : Bytes)
    (outBodyCap : Nat) : Option (DecodeResult c) :=
  let e := st.get i
  let maskLen := (e.valCount.toNat + 7) / 8
  if e.valCount = 0 ∨ body = [] ∨ body.length < maskLen then some ⟨st, none⟩
  else do
    let mask := beNat (body.take maskLen) % 2 ^ 32
    let (lastVals, ok) ← applySlots mask e.valCount.toNat 0 (body.drop maskLen) e.lastVals
    let e := { e with lastVals := lastVals }
    if ok then deliverEntry (st.set i e i.isLt) e pm outBodyCap else some ⟨st.set i e i.isLt, none⟩

def decodeHeart (st : FusionState c) (i : Fin c.maxEntries) (pm : PacketMeta)
    (outBodyCap : Nat) : Option (DecodeResult c) :=
  if (st.get i).valCount = 0 then some ⟨st, none⟩ else deliverEntry st (st.get i) pm outBodyCap

def fusionDecodeApply (st : FusionState c) (packet : Bytes) (outBodyCap : Nat) :
    Option (DecodeResult c) :=
  match packetDecodeMeta packet with
  | none => some ⟨st, none⟩
  | some pm =>
    let body := pm.body packet
    if pm.cmd = Cmd.dataFull then do
      let p ← parseBodySlots c body c.maxSensors
      let st ← learnFull st pm p
      some ⟨st, if outBodyCap < body.length then none else some (body, pm)⟩
    else
      match findEntry st pm.sourceAid pm.tid with
      | none => some ⟨st, none⟩
      | some i =>
        if pm.cmd = Cmd.dataDiff then decodeDiff st i pm body outBodyCap
        else if pm.cmd = Cmd.dataHeart then decodeHeart st i pm outBodyCap
        else some ⟨st, none⟩

end Osfx
