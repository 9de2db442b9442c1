import Osfx.Lib.Reassembly
import Osfx.Lib.Run
import Osfx.Lib.Numeral
import Osfx.Sizes

/-!
# The protocol matrix

`osfx_protocol_matrix.c`: the frames of the four links. The emit callback is a parameter, and
what it answers may hang on the frames it was given before; they are kept in the order in which
it was given them. The runtime of the matrix is the transporter, and no send reads it. Pointers
are not NULL but for the callback.
-/

namespace Osfx

open EventSystem Numeral Reassembly

/-- A frame the emit callback was given, and the protocol it was given for it. -/
structure MatrixFrame where
  protocol : Bytes
  frame : Bytes
  deriving DecidableEq

/-- The part of `osfx_protocol_matrix` that a send uses, and what has been emitted. -/
structure ProtocolMatrix where
  emitFn : Option (List MatrixFrame → MatrixFrame → Bool)
  emitted : List MatrixFrame

/-- `osfx_protocol_matrix_init`. -/
def matrixInit (emitFn : Option (List MatrixFrame → MatrixFrame → Bool)) : ProtocolMatrix :=
  ⟨emitFn, []⟩

/-- `matrix_emit`: what it returns, and the matrix afterwards. -/
def matrixEmit (pm : ProtocolMatrix) (protocol frame : Bytes) : Bool × ProtocolMatrix :=
  match pm.emitFn with
  | none => (false, pm)
  | some emit =>
    (emit pm.emitted ⟨protocol, frame⟩, { pm with emitted := pm.emitted ++ [⟨protocol, frame⟩] })

/-- The size of the `frame` of the stream links. -/
def streamFrameMax : Nat := 1500

/-- The frame of `osfx_protocol_send_tcp`: the length in two bytes in front. -/
def tcpFrame (payload : Bytes) : Bytes := beBytes 2 payload.length ++ payload

/-- The frame of `osfx_protocol_send_uart`: a start byte and an end byte. -/
def uartFrame (payload : Bytes) : Bytes := 2 :: (payload ++ [3])

/-- A frame of `osfx_protocol_send_can`: its number in one byte, and its length. -/
def canFrame (idx : Nat) (chunk : Bytes) : Bytes :=
  UInt8.ofNat idx :: UInt8.ofNat chunk.length :: chunk

/-- `osfx_protocol_send_udp`. -/
def sendUdp (pm : ProtocolMatrix) (payload : Bytes) : Bool × ProtocolMatrix :=
  matrixEmit pm (ascii "udp") payload

/-- A send of a stream link: a payload that does not fit its frame is refused. -/
def sendFramed (protocol : Bytes) (frame : Bytes → Bytes) (pm : ProtocolMatrix) (payload : Bytes) :
    Bool × ProtocolMatrix :=
  if streamFrameMax < payload.length + 2 then (false, pm)
  else matrixEmit pm protocol (frame payload)

/-- `osfx_protocol_send_tcp`. -/
def sendTcp : ProtocolMatrix → Bytes → Bool × ProtocolMatrix := sendFramed (ascii "tcp") tcpFrame

/-- `osfx_protocol_send_uart`. -/
def sendUart : ProtocolMatrix → Bytes → Bool × ProtocolMatrix := sendFramed (ascii "uart") uartFrame

/-- The loop of `osfx_protocol_send_can`, from frame `idx` on, with `rest` to send. -/
def sendCanFrom (pm : ProtocolMatrix) (idx : Nat) (rest : Bytes) : Bool × ProtocolMatrix :=
  if _h : rest = [] then (true, pm)
  else
    match matrixEmit pm (ascii "can") (canFrame idx (rest.take 8)) with
    | (false, pm) => (false, pm)
    | (true, pm) => sendCanFrom pm (idx + 1) (rest.drop 8)
termination_by rest.length
decreasing_by
  have hpos := List.length_pos_of_ne_nil _h
  rw [List.length_drop]
  omega

/-- `osfx_protocol_send_can`. -/
def sendCan (pm : ProtocolMatrix) (payload : Bytes) : Bool × ProtocolMatrix :=
  sendCanFrom pm 0 payload

/-! ## What has been emitted -/

/-- What stands on the wire. -/
def ProtocolMatrix.wire (pm : ProtocolMatrix) : Bytes := (pm.emitted.map MatrixFrame.frame).flatten

theorem matrixEmit_true {pm pm' : ProtocolMatrix} {protocol frame : Bytes}
    (h : matrixEmit pm protocol frame = (true, pm')) :
    pm' = { pm with emitted := pm.emitted ++ [⟨protocol, frame⟩] } := by
  unfold matrixEmit at h
  split at h
  · cases h
  · exact (Prod.mk.inj h).2.symm

/-- The frames of a payload, as `osfx_protocol_send_can` emits them. -/
def canFrames (payload : Bytes) : List Bytes := (pieces 8 payload).mapIdx canFrame

theorem sendCanFrom_true {pm pm' : ProtocolMatrix} {idx : Nat} {rest : Bytes}
    (h : sendCanFrom pm idx rest = (true, pm')) : pm'.emitted = pm.emitted ++
      (pieces 8 rest).mapIdx fun k chunk => ⟨ascii "can", canFrame (idx + k) chunk⟩ := by
  induction rest using pieces.induct 8 generalizing pm idx with
  | case1 rest hempty =>
    obtain rfl : rest = [] := hempty.resolve_right (by decide)
    rw [sendCanFrom, dif_pos rfl] at h
    cases h
    rw [pieces_nil, List.mapIdx_nil, List.append_nil]
  | case2 rest hrest ih =>
    have hne := (not_or.mp hrest).1
    rw [sendCanFrom, dif_neg hne] at h
    split at h
    · cases h
    · rename_i pm₁ hemit
      rw [ih h, matrixEmit_true hemit, pieces_of_ne_nil (by decide) hne, List.mapIdx_cons,
        List.append_assoc, List.singleton_append]
      simp only [Nat.add_zero, Nat.add_assoc, Nat.add_comm 1]

/-- What a successful send has emitted are the frames of its payload. -/
theorem sendCan_true {pm pm' : ProtocolMatrix} {payload : Bytes}
    (h : sendCan pm payload = (true, pm')) :
    pm'.emitted = pm.emitted ++ (canFrames payload).map (⟨ascii "can", ·⟩) := by
  rw [sendCanFrom_true h, canFrames, map_mapIdx]
  simp only [Nat.zero_add]

/-- A callback that takes every frame. -/
def takesAll : Option (List MatrixFrame → MatrixFrame → Bool) := some fun _ _ => true

theorem sendCanFrom_takesAll {pm : ProtocolMatrix} (idx : Nat) (rest : Bytes)
    (h : pm.emitFn = takesAll) : (sendCanFrom pm idx rest).1 = true := by
  induction rest using pieces.induct 8 generalizing pm idx with
  | case1 rest hempty =>
    obtain rfl : rest = [] := hempty.resolve_right (by decide)
    rw [sendCanFrom, dif_pos rfl]
  | case2 rest hrest ih =>
    rw [sendCanFrom, dif_neg (not_or.mp hrest).1]
    simp only [matrixEmit, h, takesAll]
    exact ih (idx + 1) rfl

theorem sendCan_takesAll (payload : Bytes) :
    ∃ pm, sendCan (matrixInit takesAll) payload = (true, pm) :=
  ⟨_, Prod.ext (sendCanFrom_takesAll 0 payload rfl) rfl⟩

end Osfx
