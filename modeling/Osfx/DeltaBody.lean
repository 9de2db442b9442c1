import Osfx.Fusion.Lockstep
import Osfx.SensorAuto

/-!
# What a delta hands out

A FULL of `osfx_core_encode_sensor_packet_auto` carries the timestamp as the eight
characters of `osfx_b64url_ts6`. A DIFF or a HEART carries none, and `reconstruct_body`
prints the one of the frame in decimal. So a run delivers the body of the plain path for
every delta exactly if it has none (`delta_bodies_same_iff`).
-/

namespace Osfx

open EventSystem Numeral Text

/-! ## The timestamp of a rebuilt body -/

section
variable {V : Type} {c : FusionSizes} {resolve : V → Bytes → Int64 × Bytes} {call : SensorCall V}

theorem dot_not_mem_b64urlTs6 (timestampRaw : UInt64) : dot ∉ b64urlTs6 timestampRaw :=
  fun hb => absurd (mem_b64urlTs6 hb) (by decide)

/-- The part of the header that is not kept is the timestamp token. -/
theorem SensorCall.header_tail {sig rest : Bytes}
    (h : bodyHeader c (call.body resolve) = some (sig, rest)) :
    ∃ segments, call.body resolve = sig ++ b64urlTs6 call.timestampRaw ++ bar :: segments := by
  obtain ⟨name, tail, rfl, hbody, hdot, hbar, -⟩ := bodyHeader_eq_some h
  have hplain : cutFirst bar (call.body resolve) =
      some (decimal call.sourceAid.toNat ++ ascii ".U." ++ b64urlTs6 call.timestampRaw,
        call.sensorId ++ ascii ">U." ++ call.stdUnit resolve ++ [colon] ++
          b62Numeral (call.scaled resolve) ++ [bar]) :=
    cutFirst_eq_some.mpr ⟨by simp [SensorCall.body], bar_not_mem_sensorHeader _ _⟩
  rw [hbody, cutFirst_append hbar] at hplain
  have hheader : name ++ dot :: tail =
      (decimal call.sourceAid.toNat ++ ascii ".U") ++ dot :: b64urlTs6 call.timestampRaw := by
    have hstatus : ascii ".U." = ascii ".U" ++ [dot] := rfl
    have hfst := congrArg Prod.fst (Option.some.inj hplain)
    simpa [hstatus] using hfst
  have hlast : cutLast dot (name ++ dot :: tail) = some (name, tail) :=
    cutLast_eq_some.mpr ⟨rfl, hdot⟩
  have hlast' : cutLast dot (name ++ dot :: tail) =
      some (decimal call.sourceAid.toNat ++ ascii ".U", b64urlTs6 call.timestampRaw) :=
    cutLast_eq_some.mpr ⟨hheader, dot_not_mem_b64urlTs6 _⟩
  obtain rfl : tail = b64urlTs6 call.timestampRaw :=
    congrArg Prod.snd (Option.some.inj (hlast.symm.trans hlast'))
  exact ⟨rest, hbody⟩

/-- A body rebuilt from the cache is never the one of the FULL. -/
theorem expectedBody_ne {cmd : UInt8} (hcmd : cmd ≠ Cmd.dataFull)
    (hkept : keptSensors c (call.body resolve) ≠ []) :
    expectedBody c (call.fullCall resolve) cmd ≠ call.body resolve := by
  intro hsame
  obtain ⟨s, hs⟩ := List.exists_mem_of_ne_nil _ hkept
  obtain ⟨sig, rest, -, hb, -, -⟩ := mem_keptSensors hs
  have hprefix : headerPrefix c (call.body resolve) = sig := by simp [headerPrefix, hb]
  obtain ⟨segments, hbody⟩ := SensorCall.header_tail hb
  have htext : sig ++ decimal (call.timestampRaw.toNat % 2 ^ 48) ++ bar ::
      ended bar ((keptSensors c (call.body resolve)).map segmentText) =
        sig ++ b64urlTs6 call.timestampRaw ++ bar :: segments := by
    rw [expectedBody, if_neg hcmd, templateText] at hsame
    rw [← hbody, ← hprefix]
    exact hsame
  rw [List.append_assoc, List.append_assoc, List.append_cancel_left_eq] at htext
  have hdecimal := cutFirst_append (bar_not_mem_decimal (call.timestampRaw.toNat % 2 ^ 48))
    (ended bar ((keptSensors c (call.body resolve)).map segmentText))
  rw [htext, cutFirst_append (bar_not_mem_b64urlTs6 _)] at hdecimal
  exact decimal_ne_b64urlTs6 call.timestampRaw
    (congrArg Prod.fst (Option.some.inj hdecimal)).symm

end

/-! ## Runs of a linked pair -/

/-- One call whose packet is handed over at once, and the receiver's buffer. -/
structure SensorSend (V : Type) where
  call : SensorCall V
  out : EncodeOut
  outBodyCap : Nat

/-- The last exchange: the call, the command it was sent with and the body handed out. -/
structure SensorExchange (V : Type) where
  call : SensorCall V
  cmd : UInt8
  delivered : Option Bytes
  deriving DecidableEq, Repr

structure SensorLink (V : Type) (c : FusionSizes) where
  sender : FusionState c
  receiver : FusionState c
  last : Option (SensorExchange V)

section
variable {V : Type} {c : FusionSizes} (exts : Extensions) (maxSensors : Nat)
variable (resolve : V → Bytes → Int64 × Bytes)

def SensorLink.init (V : Type) (c : FusionSizes) : SensorLink V c :=
  ⟨fusionStateInit c, fusionStateInit c, none⟩

/-- An encode call that returns 1 and the decode of its packet into a buffer that holds
the body expected. A decode that leaves the arrays hands out nothing. -/
def sensorStep (l : SensorLink V c) (s : SensorSend V) : Option (SensorLink V c) := do
  let r ← coreEncodeSensorPacketAuto exts maxSensors resolve l.sender s.call s.out
  if r.ret = true ∧ (expectedBody c (s.call.fullCall resolve) r.out.outCmd).length ≤
      s.outBodyCap then
    let d := (fusionDecodeApply l.receiver r.out.packet s.outBodyCap).getD ⟨l.receiver, none⟩
    some ⟨r.state, d.state, some ⟨s.call, r.out.outCmd, d.out.map Prod.fst⟩⟩
  else none

/-- A DIFF or a HEART handed out the body that the plain path frames for its call. -/
def DeltaBodiesSame (l : SensorLink V c) : Prop :=
  ∀ x, l.last = some x → x.cmd ≠ Cmd.dataFull → x.delivered = some (x.call.body resolve)

/-- The tables are the same, and the last delta handed out the body. -/
structure SensorLink.Ok (l : SensorLink V c) : Prop where
  state : StateOk l.sender
  same : l.sender = l.receiver
  delivered : DeltaBodiesSame resolve l

variable {exts maxSensors resolve}

/-- A step keeps the tables the same, and hands out the body expected. -/
theorem sensorStep_cases (hc : c.Small) {l l' : SensorLink V c} {s : SensorSend V}
    (hstate : StateOk l.sender) (hsame : l.sender = l.receiver)
    (h : sensorStep exts maxSensors resolve l s = some l') :
    StateOk l'.sender ∧ l'.sender = l'.receiver ∧ ∃ cmd,
      (SentFull l.sender (s.call.fullCall resolve) ↔ cmd = Cmd.dataFull) ∧
      l'.last = some ⟨s.call, cmd,
        some (expectedBody c (s.call.fullCall resolve) cmd)⟩ := by
  obtain ⟨r, hr, h⟩ := Option.bind_eq_some_iff.mp h
  split at h
  · rename_i hguard
    obtain ⟨hret, hcap⟩ := hguard
    obtain ⟨hencode, hlen⟩ := coreEncodeSensorPacketAuto_some hr hret
    have hint : FullFitsInt l.sender (s.call.fullCall resolve) := by
      intro _
      exact Nat.lt_of_le_of_lt (Nat.add_le_add_right hlen 16) (by decide)
    obtain ⟨pm, hdec⟩ := lockstep_step hc hstate hencode hret hint hcap
    rw [← hsame, hdec, Option.getD_some] at h
    cases h
    refine ⟨?_, rfl, r.out.outCmd, sentFull_iff hc hstate hencode hret, rfl⟩
    exact fusionStep_stateOk hc l.sender (.encode _ s.out) r.state hstate
      (by rw [fusionStep, hencode]; rfl)
  · cases h

theorem sensorStep_keeps (hc : c.Small) (l : SensorLink V c) (s : SensorSend V)
    (l' : SensorLink V c) (hl : l.Ok resolve)
    (hfull : SentFull l.sender (s.call.fullCall resolve))
    (h : sensorStep exts maxSensors resolve l s = some l') : l'.Ok resolve := by
  obtain ⟨hstate, hsame, cmd, hcmd, hlast⟩ := sensorStep_cases hc hl.state hl.same h
  refine ⟨hstate, hsame, ?_⟩
  intro x hx hdelta
  rw [hlast] at hx
  cases hx
  exact absurd (hcmd.mp hfull) hdelta

theorem sensorStep_loses (hc : c.Small) (l : SensorLink V c) (s : SensorSend V)
    (l' : SensorLink V c) (hl : l.Ok resolve)
    (hdelta : ¬ SentFull l.sender (s.call.fullCall resolve))
    (h : sensorStep exts maxSensors resolve l s = some l') : ¬ DeltaBodiesSame resolve l' := by
  obtain ⟨-, -, cmd, hcmd, hlast⟩ := sensorStep_cases hc hl.state hl.same h
  intro hbodies
  have hdelivered := hbodies _ hlast (mt hcmd.mpr hdelta)
  have hkept : keptSensors c (s.call.body resolve) ≠ [] := fun hnil => hdelta (Or.inl hnil)
  exact expectedBody_ne (mt hcmd.mpr hdelta) hkept (Option.some.inj hdelivered)

/-- In every size configuration the repository ships, over every run from fresh tables each
DIFF and each HEART hands out the body of the plain path exactly if each call finds no
structure to send against, so that no DIFF and no HEART is sent. -/
theorem delta_bodies_same_iff (hc : c ∈ FusionSizes.shipped) {sends : List (SensorSend V)}
    {l : SensorLink V c}
    (hrun : run (sensorStep exts maxSensors resolve) (SensorLink.init V c) sends = some l) :
    Always (sensorStep exts maxSensors resolve) (DeltaBodiesSame resolve) (SensorLink.init V c)
        sends ↔
      Each (sensorStep exts maxSensors resolve)
        (fun l s => SentFull l.sender (s.call.fullCall resolve))
        (SensorLink.init V c) sends := by
  have hsmall := FusionSizes.shipped_small hc
  have hinit : (SensorLink.init V c).Ok resolve := by
    refine ⟨stateOk_init hsmall, rfl, ?_⟩
    intro x hx
    cases hx
  exact always_iff_each _ (sensorStep_keeps hsmall) (fun _ hl => hl.delivered)
    (sensorStep_loses hsmall) hinit hrun

end

/-- A pressure that stays the same. -/
def pressureSend (timestampRaw : UInt64) : SensorSend Int64 where
  call := ⟨77, 3, timestampRaw, ascii "P1", 101325, ascii "Pa", 128⟩
  out := ⟨[], 0, 0⟩
  outBodyCap := 128

/-- A FULL and a HEART of one stream. -/
def twoPressures : List (SensorSend Int64) := [pressureSend 1710000103, pressureSend 1710000104]

/-- The step in the default build. -/
def pressureStep : SensorLink Int64 FusionSizes.headerDefault → SensorSend Int64 →
    Option (SensorLink Int64 FusionSizes.headerDefault) :=
  sensorStep CoreConfig.headerDefault.exts CoreConfig.headerDefault.tmplMaxSensors pascals

theorem twoPressures_last :
    (run pressureStep (SensorLink.init Int64 .headerDefault) twoPressures).map SensorLink.last =
      some (some ⟨(pressureSend 1710000104).call, Cmd.dataHeart,
        some (ascii "77.U.1710000104|P1>U.Pa:16zuBW|")⟩) := by decide +kernel

theorem twoPressures_bodies_same_iff :
    Always pressureStep (DeltaBodiesSame pascals) (SensorLink.init Int64 .headerDefault)
        twoPressures ↔
      Each pressureStep (fun l s => SentFull l.sender (s.call.fullCall pascals))
        (SensorLink.init Int64 .headerDefault) twoPressures := by
  obtain ⟨l, hrun, -⟩ := Option.map_eq_some_iff.mp twoPressures_last
  exact delta_bodies_same_iff (by decide) hrun

/-- The plain path frames the timestamp in base64url, the HEART stands for one in decimal. -/
theorem heart_timestamp_in_decimal :
    sensorPacketBody pascals (pressureSend 1710000104).call =
      some (ascii "77.U.AABl7Ifo|P1>U.Pa:16zuBW|") ∧
    (∃ l, run pressureStep (SensorLink.init Int64 .headerDefault) twoPressures = some l ∧
      l.last = some ⟨(pressureSend 1710000104).call, Cmd.dataHeart,
        some (ascii "77.U.1710000104|P1>U.Pa:16zuBW|")⟩ ∧ ¬ DeltaBodiesSame pascals l) := by
  have hplain : sensorPacketBody pascals (pressureSend 1710000104).call =
      some (ascii "77.U.AABl7Ifo|P1>U.Pa:16zuBW|") := by decide +kernel
  obtain ⟨l, hrun, hlast⟩ := Option.map_eq_some_iff.mp twoPressures_last
  refine ⟨hplain, l, hrun, hlast, fun hsame => ?_⟩
  have hdelivered := hsame _ hlast (by decide)
  rw [← (sensorPacketBody_some hplain).1] at hdelivered
  revert hdelivered
  decide +kernel

end Osfx
