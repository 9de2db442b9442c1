import Osfx.SecureSession
import Osfx.IdAllocator
import Osfx.FusionPacket

/-!
# Dispatch of control and data packets

`osfx_hs_classify_dispatch`: what a node does with a packet before anything of its
body is read. A data frame passes the CRC16, then the timestamp window of its
sender, and drives the key exchange; a control packet is answered at once.
-/

namespace Osfx

open Numeral

inductive HsKind where
  | error
  | data
  | ctrl
  | unknown
  deriving DecidableEq, Repr

inductive HsReject where
  | none
  | malformed
  | crc
  | replay
  | outOfOrder
  | noSession
  | unsupported
  deriving DecidableEq, Repr

/-- `osfx_hs_dispatch_ctx` and what it points to. A null context is one of neither, at
time 0. -/
structure HsDispatchCtx (n : Nat) where
  secureStore : Option SecureStore
  idAllocator : Option (IdAllocator n)
  nowTs : UInt64

structure HsResult where
  kind : HsKind
  cmd : UInt8
  baseCmd : UInt8
  sourceAid : UInt32
  ok : Bool
  reject : HsReject
  response : Option Bytes
  deriving DecidableEq, Repr

/-- What a call returns, the result it fills in, and the context after it. -/
structure HsOutcome (n : Nat) where
  ret : Bool
  result : HsResult
  ctx : HsDispatchCtx n

/-- `OSFX_HS_RESP_MAX`. -/
def hsRespMax : Nat := 128

namespace HsResult

def cleared : HsResult := ⟨.error, 0, 0, 0, false, .none, .none⟩

def setReject (r : HsResult) (reject : HsReject) : HsResult := { r with ok := false, reject }

/-- `write_response`, where the builder wrote anything. -/
def writeResponse (r : HsResult) : Option Bytes → HsResult
  | .none => r
  | .some data => if data.length > hsRespMax then r else { r with response := .some data }

def maybeWriteNackSeq (r : HsResult) (seq : UInt16) (reason : Bytes) : HsResult :=
  r.writeResponse (buildNack seq reason hsRespMax)

end HsResult

section
variable {n : Nat}

/-- The sequence number of a control packet. -/
def packetSeq (packet : Bytes) : UInt16 := UInt16.ofNat (beNat (slice packet 1 2))

/-- The aid of a SECURE_DICT_READY or SECURE_CHANNEL_ACK. -/
def packetAid (packet : Bytes) : UInt32 := UInt32.ofNat (beNat (slice packet 1 4))

/-- The timestamp of a SECURE_DICT_READY. -/
def packetReadyTs (packet : Bytes) : UInt64 := UInt64.ofNat (beNat (slice packet 5 8))

def isDataCmd (baseCmd : UInt8) : Bool :=
  baseCmd = Cmd.dataFull || baseCmd = Cmd.dataDiff || baseCmd = Cmd.dataHeart

/-- A plaintext data frame the window has let through: the first one of an aid confirms
its key and is answered. -/
def dispatchPlain (ctx : HsDispatchCtx n) (store : SecureStore) (pm : PacketMeta)
    (r : HsResult) : HsOutcome n :=
  if store.shouldEncrypt pm.sourceAid then ⟨true, r, { ctx with secureStore := store }⟩
  else
    let confirmed := store.confirmDict pm.sourceAid pm.timestampRaw ctx.nowTs
    ⟨true, r.writeResponse (buildSecureDictReady pm.sourceAid pm.timestampRaw 16),
      { ctx with secureStore := confirmed.1 }⟩

/-- A secure data frame the window has let through. -/
def dispatchSecure (ctx : HsDispatchCtx n) (store : SecureStore) (pm : PacketMeta)
    (r : HsResult) : HsOutcome n :=
  if store.shouldEncrypt pm.sourceAid = false then
    ⟨false, r.setReject .noSession, { ctx with secureStore := store }⟩
  else if store.isChannelConfirmed pm.sourceAid then
    ⟨true, r, { ctx with secureStore := store }⟩
  else
    let marked := store.markChannel pm.sourceAid ctx.nowTs
    ⟨true, r.writeResponse (buildSecureChannelAck pm.sourceAid 8),
      { ctx with secureStore := marked.1 }⟩

/-- A data frame whose CRC16 is right, where there is a session store. -/
def dispatchSession (ctx : HsDispatchCtx n) (store : SecureStore) (pm : PacketMeta)
    (r : HsResult) : HsOutcome n :=
  let checked := store.checkAndUpdateTimestamp pm.sourceAid pm.timestampRaw ctx.nowTs
  match checked.2 with
  | .replay => ⟨false, r.setReject .replay, { ctx with secureStore := checked.1 }⟩
  | .outOfOrder => ⟨false, r.setReject .outOfOrder, { ctx with secureStore := checked.1 }⟩
  | .accept =>
    if r.cmd = r.baseCmd then dispatchPlain ctx checked.1 pm r
    else dispatchSecure ctx checked.1 pm r

def dispatchData (ctx : HsDispatchCtx n) (packet : Bytes) (r : HsResult) : HsOutcome n :=
  match packetDecodeMeta packet with
  | none => ⟨false, r.setReject .malformed, ctx⟩
  | some pm =>
    if pm.crc16Ok = false then
      ⟨false, { r with sourceAid := pm.sourceAid }.setReject .crc, ctx⟩
    else
      match ctx.secureStore with
      | none => ⟨true, { r with sourceAid := pm.sourceAid, ok := true }, ctx⟩
      | some store =>
        dispatchSession ctx store pm { r with sourceAid := pm.sourceAid, ok := true }

def dispatchPing (ctx : HsDispatchCtx n) (packet : Bytes) (r : HsResult) : HsOutcome n :=
  if packet.length ≠ 3 then ⟨false, r.setReject .malformed, ctx⟩
  else ⟨true, r.writeResponse (some (Cmd.pong :: beBytes 2 (packetSeq packet).toNat)), ctx⟩

def dispatchTimeRequest (ctx : HsDispatchCtx n) (packet : Bytes) (r : HsResult) : HsOutcome n :=
  if packet.length ≠ 3 then ⟨false, r.setReject .malformed, ctx⟩
  else ⟨true, r.writeResponse (buildTimeResponse (packetSeq packet) ctx.nowTs 16), ctx⟩

/-- The buffer of the answer has 16 bytes, too few for the text of the NACK. -/
def dispatchIdRequest (ctx : HsDispatchCtx n) (packet : Bytes) (r : HsResult) : HsOutcome n :=
  if packet.length < 3 then
    ⟨false, (r.setReject .malformed).maybeWriteNackSeq 0 (ascii "MALFORMED_ID_REQUEST"), ctx⟩
  else
    match ctx.idAllocator with
    | none =>
      ⟨false, (r.setReject .unsupported).maybeWriteNackSeq (packetSeq packet)
        (ascii "NO_ALLOCATOR"), ctx⟩
    | some alloc =>
      match alloc.allocate ctx.nowTs with
      | (alloc, some aid) =>
        ⟨true, r.writeResponse (buildIdAssign (packetSeq packet) aid 16),
          { ctx with idAllocator := alloc }⟩
      | (alloc, none) =>
        ⟨true, r.writeResponse (buildNack (packetSeq packet) (ascii "ID_POOL_EXHAUSTED") 16),
          { ctx with idAllocator := alloc }⟩

def dispatchDictReady (ctx : HsDispatchCtx n) (packet : Bytes) (r : HsResult) : HsOutcome n :=
  match ctx.secureStore with
  | none => ⟨false, r.setReject .malformed, ctx⟩
  | some store =>
    if packet.length ≠ 13 then ⟨false, r.setReject .malformed, ctx⟩
    else
      ⟨true, r, { ctx with
        secureStore :=
          (store.confirmDict (packetAid packet) (packetReadyTs packet) ctx.nowTs).1 }⟩

def dispatchChannelAck (ctx : HsDispatchCtx n) (packet : Bytes) (r : HsResult) : HsOutcome n :=
  match ctx.secureStore with
  | none => ⟨false, r.setReject .malformed, ctx⟩
  | some store =>
    if packet.length ≠ 5 then ⟨false, r.setReject .malformed, ctx⟩
    else ⟨true, r, { ctx with secureStore := (store.markChannel (packetAid packet) ctx.nowTs).1 }⟩

def dispatchCtrl (ctx : HsDispatchCtx n) (packet : Bytes) (r : HsResult) : HsOutcome n :=
  if r.cmd = Cmd.ping then dispatchPing ctx packet r
  else if r.cmd = Cmd.timeRequest then dispatchTimeRequest ctx packet r
  else if r.cmd = Cmd.idRequest then dispatchIdRequest ctx packet r
  else if r.cmd = Cmd.secureDictReady then dispatchDictReady ctx packet r
  else if r.cmd = Cmd.secureChannelAck then dispatchChannelAck ctx packet r
  else if r.cmd = Cmd.handshakeAck ∨ r.cmd = Cmd.handshakeNack ∨ r.cmd = Cmd.idAssign ∨
      r.cmd = Cmd.timeResponse ∨ r.cmd = Cmd.pong then ⟨true, r, ctx⟩
  else ⟨false, { r with kind := .unknown }.setReject .unsupported, ctx⟩

/-- `osfx_hs_classify_dispatch`. -/
def hsClassifyDispatch (ctx : HsDispatchCtx n) (packet : Bytes) : HsOutcome n :=
  match packet with
  | [] => ⟨false, .cleared, ctx⟩
  | cmd :: _ =>
    let r := { HsResult.cleared with cmd, baseCmd := cmdNormalizeData cmd }
    if isDataCmd (cmdNormalizeData cmd) then dispatchData ctx packet { r with kind := .data }
    else dispatchCtrl ctx packet { r with kind := .ctrl, ok := true }

end

end Osfx
