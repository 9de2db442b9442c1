import Osfx.Lib.Framing
import Osfx.ProtocolMatrix

/-!
# Frames on the stream links

What stands on the wire after a list of payloads has been sent. On the TCP link it determines
the payloads. On the UART link nothing is done about start and end bytes inside a payload, so
there are lists with one wire; `streams_delimited_iff` says which are the only ones with theirs.
-/

namespace Osfx

open EventSystem Framing Numeral

/-- A send that returns 1. -/
def sent (send : ProtocolMatrix → Bytes → Bool × ProtocolMatrix) (pm : ProtocolMatrix)
    (payload : Bytes) : Option ProtocolMatrix :=
  if (send pm payload).1 then some (send pm payload).2 else none

/-- The longest payload of a stream link. -/
def streamPayloadMax : Nat := 1498

/-- No payload has an end byte with a start byte behind it, and no two neighbours have room in
one frame with these two between them. -/
def UartDelimited (ps : List Bytes) : Prop :=
  (∀ p ∈ ps, ¬ [3, 2] <:+: p) ∧
  ∀ before p q after, ps = before ++ p :: q :: after → streamPayloadMax < p.length + q.length + 2

/-- Only this list of payloads leaves these bytes on the wire. -/
def OnlyOnWire (send : ProtocolMatrix → Bytes → Bool × ProtocolMatrix) (ps : List Bytes)
    (pm : ProtocolMatrix) : Prop :=
  ∀ emitFn' qs pm', run (sent send) (matrixInit emitFn') qs = some pm' →
    pm'.wire = pm.wire → qs = ps

section
variable {protocol : Bytes} {frame : Bytes → Bytes}

theorem sent_framed {pm pm' : ProtocolMatrix} {payload : Bytes}
    (h : sent (sendFramed protocol frame) pm payload = some pm') :
    payload.length ≤ streamPayloadMax ∧ pm'.wire = pm.wire ++ frame payload := by
  obtain ⟨hret, hpm⟩ := Option.ite_none_right_eq_some.mp h
  rw [sendFramed] at hret hpm
  split at hret
  · cases hret
  · rename_i hfit
    rw [if_neg hfit] at hpm
    have hemit := matrixEmit_true (Prod.ext hret (Option.some.inj hpm))
    simp only [streamFrameMax] at hfit
    refine ⟨by simp only [streamPayloadMax]; omega, ?_⟩
    rw [hemit]
    simp [ProtocolMatrix.wire]

theorem run_framed {ps : List Bytes} {pm pm' : ProtocolMatrix}
    (h : run (sent (sendFramed protocol frame)) pm ps = some pm') :
    (∀ p ∈ ps, p.length ≤ streamPayloadMax) ∧ pm'.wire = pm.wire ++ stream frame ps := by
  induction ps generalizing pm with
  | nil =>
    cases h
    refine ⟨fun p hp => ?_, (List.append_nil _).symm⟩
    cases hp
  | cons p ps ih =>
    obtain ⟨pm₁, hsent, hrest⟩ := Option.bind_eq_some_iff.mp h
    obtain ⟨hfit, hwire⟩ := sent_framed hsent
    obtain ⟨hfits, hwires⟩ := ih hrest
    rw [hwires, hwire, stream_cons, List.append_assoc]
    refine ⟨fun q hq => ?_, rfl⟩
    rcases List.mem_cons.mp hq with rfl | hq
    · exact hfit
    · exact hfits q hq

/-- Payloads that fit can be sent. -/
theorem run_framed_takesAll {ps : List Bytes} (hfit : ∀ p ∈ ps, p.length ≤ streamPayloadMax)
    {pm : ProtocolMatrix} (hpm : pm.emitFn = takesAll) :
    ∃ pm', run (sent (sendFramed protocol frame)) pm ps = some pm' := by
  induction ps generalizing pm with
  | nil => exact ⟨pm, rfl⟩
  | cons p ps ih =>
    have hp : ¬ streamFrameMax < p.length + 2 := by
      have hle := hfit p List.mem_cons_self
      simp only [streamPayloadMax] at hle
      simp only [streamFrameMax]
      omega
    have hsent : sent (sendFramed protocol frame) pm p =
        some { pm with emitted := pm.emitted ++ [⟨protocol, frame p⟩] } := by
      simp only [sent, sendFramed, if_neg hp, matrixEmit, hpm, takesAll, if_true]
    rw [run_cons, hsent]
    exact ih (fun q hq => hfit q (List.mem_cons_of_mem p hq)) hpm

end

theorem wire_init {protocol : Bytes} {frame : Bytes → Bytes} {ps : List Bytes}
    {emitFn : Option (List MatrixFrame → MatrixFrame → Bool)} {pm : ProtocolMatrix}
    (h : run (sent (sendFramed protocol frame)) (matrixInit emitFn) ps = some pm) :
    pm.wire = stream frame ps := (run_framed h).2

/-! ## The TCP link -/

theorem tcpFrame_ne_nil (payload : Bytes) : tcpFrame payload ≠ [] := by
  intro hnil
  have hlen := congrArg List.length hnil
  simp [tcpFrame] at hlen

theorem tcpFrame_front {p q rest rest' : Bytes} (hp : p.length ≤ streamPayloadMax)
    (hq : q.length ≤ streamPayloadMax) (h : tcpFrame p ++ rest = tcpFrame q ++ rest') : p = q := by
  simp only [streamPayloadMax] at hp hq
  simp only [tcpFrame, List.append_assoc] at h
  obtain ⟨hhead, hbody⟩ := List.append_inj h (by rw [length_beBytes, length_beBytes])
  have hlen : p.length = q.length := by
    have hnat := congrArg beNat hhead
    rwa [beNat_beBytes_of_lt (by omega), beNat_beBytes_of_lt (by omega)] at hnat
  exact List.append_inj_left hbody hlen

/-! ## The UART link -/

/-- A UART frame is a payload that is marked at both ends. -/
theorem wire_uart {ps : List Bytes} {emitFn : Option (List MatrixFrame → MatrixFrame → Bool)}
    {pm : ProtocolMatrix} (h : run (sent sendUart) (matrixInit emitFn) ps = some pm) :
    pm.wire = stream (marked 2 3) ps := wire_init h

/-- On the TCP link a list of payloads is the only one of its wire. On the UART link it is exactly
if none of its payloads has the marks of a frame's end and a frame's start in it and no two
neighbours have room in one frame; and two lists of payloads without these marks are never
confused. -/
theorem streams_delimited_iff (emitFn : Option (List MatrixFrame → MatrixFrame → Bool))
    (ps : List Bytes) :
    (∀ pm, run (sent sendTcp) (matrixInit emitFn) ps = some pm → OnlyOnWire sendTcp ps pm) ∧
    ∀ pm, run (sent sendUart) (matrixInit emitFn) ps = some pm →
      (OnlyOnWire sendUart ps pm ↔ UartDelimited ps) ∧
      ((∀ p ∈ ps, ¬ [3, 2] <:+: p) → ∀ emitFn' qs pm',
        run (sent sendUart) (matrixInit emitFn') qs = some pm' → (∀ q ∈ qs, ¬ [3, 2] <:+: q) →
        pm'.wire = pm.wire → qs = ps) := by
  have hmarks : (2 : UInt8) ≠ 3 := by decide
  refine ⟨fun pm h emitFn' qs pm' h' hwire => ?_, fun pm h => ⟨?_, ?_⟩⟩
  · rw [wire_init h, wire_init h'] at hwire
    exact stream_inj tcpFrame_ne_nil (fun p q rest rest' => tcpFrame_front) (run_framed h').1
      (run_framed h).1 hwire
  · refine Iff.trans ?_ (onlyReading_iff hmarks (run_framed h).1)
    constructor
    · intro honly qs hqs hstream
      have hinit : (matrixInit takesAll).emitFn = takesAll := rfl
      obtain ⟨pm', h'⟩ := run_framed_takesAll hqs hinit
      exact honly takesAll qs pm' h' (by rw [wire_uart h, wire_uart h']; exact hstream)
    · intro honly emitFn' qs pm' h' hwire
      rw [wire_uart h, wire_uart h'] at hwire
      exact honly qs (run_framed h').1 hwire
  · intro hps emitFn' qs pm' h' hqs hwire
    rw [wire_uart h, wire_uart h'] at hwire
    exact marked_inj hmarks hqs hps hwire

/-- Two empty payloads leave the same bytes on the UART wire as one payload of the two marks. -/
theorem uart_confused : ¬ ∀ emitFn emitFn' ps qs pm pm',
    run (sent sendUart) (matrixInit emitFn) ps = some pm →
    run (sent sendUart) (matrixInit emitFn') qs = some pm' → pm.wire = pm'.wire → ps = qs := by
  intro hall
  obtain ⟨pm, h⟩ : ∃ pm, run (sent sendUart) (matrixInit takesAll) [[], []] = some pm := ⟨_, rfl⟩
  obtain ⟨pm', h'⟩ : ∃ pm', run (sent sendUart) (matrixInit takesAll) [[3, 2]] = some pm' :=
    ⟨_, rfl⟩
  have hwire : pm.wire = pm'.wire := by
    rw [wire_uart h, wire_uart h']
    rfl
  exact absurd (hall takesAll takesAll _ _ pm pm' h h' hwire) (by decide)

end Osfx
