import Osfx.MatrixDispatch
import Osfx.PortCommand

/-!
# The transport plugin

`osfx_plugin_transport.c`: the commands `status` and `dispatch` on a matrix with the default
drivers. A payload is typed in hexadecimal behind the name of a link, or behind `auto`.
`transport_carries_typed` says what holds in every state of a run of the plugin: what has
gone out are frames of payloads that were typed, in full for every command that was answered
with 1, and these commands are what the counters count.
-/

namespace Osfx

open Attempts EventSystem Scan Numeral

/-- `osfx_plugin_transport`, and the drivers of its matrix. -/
structure TransportPlugin where
  drivers : TransporterRuntime MatrixLink
  matrix : ProtocolMatrix
  initialized : Bool
  dispatchCount : UInt64
  lastProto : Bytes
  lastPayloadLen : UInt64

/-- `osfx_plugin_transport_init_ctx`. -/
def transportInitCtx (drivers : TransporterRuntime MatrixLink) (matrix : ProtocolMatrix) :
    TransportPlugin :=
  ⟨drivers, matrix, false, 0, [], 0⟩

/-- `osfx_plugin_transport_init` and `osfx_plugin_transport_reload`, which read no
configuration. -/
def transportInit (p : TransportPlugin) : TransportPlugin := { p with initialized := true }

/-- `osfx_plugin_transport_close`. -/
def transportClose (p : TransportPlugin) : TransportPlugin := { p with initialized := false }

/-- `hex_to_bytes`, which is that of the port forwarder. -/
def transportHexToBytes (hex : Bytes) (outCap : Nat) : Option Bytes := pfHexToBytes hex outCap

/-- `"%15s %1023s"`. -/
def scanDispatch (args : Bytes) : Option (Bytes × Bytes) := do
  let (proto, rest) ← word 15 args
  let (hex, _) ← word 1023 rest
  return (proto, hex)

/-- The link of a name. -/
def linkOfName (proto : Bytes) : Option MatrixLink :=
  if proto = ascii "udp" then some .udp
  else if proto = ascii "tcp" then some .tcp
  else if proto = ascii "uart" then some .uart
  else if proto = ascii "can" then some .can
  else none

/-- The send of a `dispatch`: what it returns, and the plugin with its matrix and
`last_proto` afterwards. -/
def transportSend (p : TransportPlugin) (proto payload : Bytes) : Bool × TransportPlugin :=
  if proto = ascii "auto" then
    let d := protocolDispatchAuto p.drivers p.matrix payload 16
    (d.ret, { p with matrix := d.state, lastProto := d.usedName.getD p.lastProto })
  else
    match linkOfName proto with
    | none => (false, p)
    | some link =>
      let sent := link.send payload p.matrix
      (sent.1, { p with
        matrix := sent.2
        lastProto := if sent.1 then proto.take 15 else p.lastProto })

/-- The return value, what is written to `out`, and the plugin afterwards. -/
structure TransportAnswer where
  ret : Bool
  out : Bytes
  plugin : TransportPlugin

def transportStatus (p : TransportPlugin) : Bytes :=
  ascii "transport initialized=" ++ printInt p.initialized.toInt ++ ascii " dispatch_count=" ++
    decimal p.dispatchCount.toNat ++ ascii " last_proto=" ++ p.lastProto ++
    ascii " last_payload_len=" ++ decimal p.lastPayloadLen.toNat

/-- `osfx_plugin_transport_command`, with room for `outRoom` bytes before the NUL of `out`. -/
def transportCommand (p : TransportPlugin) (cmd : Bytes) (args : Option Bytes) (outRoom : Nat) :
    TransportAnswer :=
  if cmd = ascii "status" then ⟨true, printOut outRoom (transportStatus p), p⟩
  else if cmd = ascii "dispatch" then
    match args.bind scanDispatch with
    | none =>
      ⟨false, printOut outRoom (ascii "error=usage dispatch <proto|auto> <hex_payload>"), p⟩
    | some (proto, hex) =>
      match transportHexToBytes hex 512 with
      | none => ⟨false, printOut outRoom (ascii "error=invalid_hex_payload"), p⟩
      | some payload =>
        let sent := transportSend p proto payload
        if sent.1 = false then
          ⟨false, printOut outRoom (ascii "error=dispatch_failed"), sent.2⟩
        else
          let p := { sent.2 with
            dispatchCount := sent.2.dispatchCount + 1
            lastPayloadLen := UInt64.ofNat payload.length }
          ⟨true, printOut outRoom (ascii "ok=1 used=" ++ p.lastProto ++ ascii " bytes=" ++
            decimal p.lastPayloadLen.toNat), p⟩
  else ⟨false, printOut outRoom (ascii "error=unknown_cmd"), p⟩

/-! ## What is typed -/

/-- The bytes a hexadecimal text stands for, two digits each. -/
inductive HexOf : Bytes → Bytes → Prop
  | nil : HexOf [] []
  | cons {hi lo h l : UInt8} {text bytes : Bytes} : hexNibble hi = some h → hexNibble lo = some l →
      HexOf text bytes → HexOf (hi :: lo :: text) ((h <<< 4 ||| l) :: bytes)

/-- The first two words of a text are the name of a link, or `auto`, and a payload in
hexadecimal of 1 to 511 bytes. -/
structure TypedFor (text : Bytes) (link : MatrixLink) (payload : Bytes) : Prop where
  name : firstWord text = link.name ∨ firstWord text = ascii "auto"
  hex : HexOf (firstWord (afterWord text)) payload
  some_byte : payload ≠ []
  fits : payload.length ≤ 511

theorem HexOf.length {text bytes : Bytes} (h : HexOf text bytes) :
    text.length = 2 * bytes.length := by
  induction h with
  | nil => rfl
  | cons _ _ _ ih =>
    simp only [List.length_cons]
    omega

theorem mapM_hexByte {text bytes : Bytes} {n : Nat} (hlen : text.length = 2 * n)
    (h : (List.range n).mapM (hexByte text) = some bytes) : HexOf text bytes := by
  induction n generalizing text bytes with
  | zero =>
    obtain rfl := List.length_eq_zero_iff.mp hlen
    cases h
    exact .nil
  | succ n ih =>
    match text with
    | [] => cases hlen
    | [_] =>
      rw [List.length_singleton] at hlen
      omega
    | hi :: lo :: text =>
      simp only [List.length_cons] at hlen
      rw [List.range_succ_eq_map, List.mapM_cons] at h
      obtain ⟨b, hb, h⟩ := Option.bind_eq_some_iff.mp h
      obtain ⟨rest, hrest, h⟩ := Option.bind_eq_some_iff.mp h
      cases h
      obtain ⟨x, hx, hb⟩ := Option.bind_eq_some_iff.mp hb
      obtain ⟨y, hy, hb⟩ := Option.bind_eq_some_iff.mp hb
      cases hb
      have hshift : (List.map Nat.succ (List.range n)).mapM (hexByte (hi :: lo :: text)) =
          (List.range n).mapM (hexByte text) := by
        rw [List.mapM_map]
        rfl
      rw [hshift] at hrest
      exact .cons hx hy (ih (by omega) hrest)

theorem transportHexToBytes_some {hex payload : Bytes} {outCap : Nat}
    (h : transportHexToBytes hex outCap = some payload) : HexOf hex payload := by
  simp only [transportHexToBytes, pfHexToBytes, Option.ite_none_left_eq_some, not_or,
    not_not] at h
  exact mapM_hexByte (by omega) h.2

/-- The names that are known are short. -/
def NamesLink (proto : Bytes) (link : MatrixLink) : Prop :=
  proto = ascii "auto" ∨ linkOfName proto = some link

theorem linkOfName_some {proto : Bytes} {link : MatrixLink} (h : linkOfName proto = some link) :
    proto = link.name := by
  unfold linkOfName at h
  split at h
  · rename_i hname
    cases h
    exact hname
  split at h
  · rename_i hname
    cases h
    exact hname
  split at h
  · rename_i hname
    cases h
    exact hname
  split at h
  · rename_i hname
    cases h
    exact hname
  · cases h

theorem name_length (link : MatrixLink) : link.name.length ≤ 4 := by
  cases link <;> decide

theorem NamesLink.name {proto : Bytes} {link : MatrixLink} (h : NamesLink proto link) :
    proto = link.name ∨ proto = ascii "auto" := by
  rcases h with hauto | hlink
  · exact Or.inr hauto
  · exact Or.inl (linkOfName_some hlink)

theorem NamesLink.length {proto : Bytes} {link : MatrixLink} (h : NamesLink proto link) :
    proto.length ≤ 4 := by
  rcases h.name with rfl | rfl
  · exact name_length link
  · decide

/-- What reaches the matrix was typed: a word that is cut off is no name of a link, and no
text of an even number of digits. -/
theorem scanDispatch_typed {text proto hex payload : Bytes} {link : MatrixLink}
    (hscan : scanDispatch text = some (proto, hex))
    (hhex : transportHexToBytes hex 512 = some payload) (hname : NamesLink proto link) :
    TypedFor text link payload := by
  obtain ⟨⟨proto', rest⟩, hproto, h⟩ := Option.bind_eq_some_iff.mp hscan
  obtain ⟨⟨hex', rest'⟩, hword, h⟩ := Option.bind_eq_some_iff.mp h
  cases h
  have hof := transportHexToBytes_some hhex
  have hne : firstWord text ≠ [] := by
    intro hnil
    rw [word_eq (by decide), if_pos hnil] at hproto
    cases hproto
  have hshort : (firstWord text).length ≤ 15 := by
    have hlen := hname.length
    rw [word_some hproto, List.length_take] at hlen
    omega
  rw [word_short hne hshort] at hproto
  cases hproto
  have hne' : firstWord (afterWord text) ≠ [] := by
    intro hnil
    rw [word_eq (by decide), if_pos hnil] at hword
    cases hword
  have hlen := hof.length
  have hcut : (firstWord (afterWord text)).length ≤ 1023 ∧
      (firstWord (afterWord text)).length ≠ 1023 := by
    rw [word_some hword, List.length_take] at hlen
    omega
  rw [word_short hne' hcut.1] at hword
  cases hword
  have hpos := List.length_pos_of_ne_nil hne'
  refine ⟨hname.name, hof, ?_, by omega⟩
  rintro rfl
  rw [List.length_nil] at hlen
  omega

/-! ## What is sent -/

/-- What a send of a payload over a named link, or over the first that takes it, does. -/
structure Sending (p : TransportPlugin) (proto payload : Bytes) (r : Bool × TransportPlugin) :
    Prop where
  drivers : r.2.drivers = p.drivers
  dispatchCount : r.2.dispatchCount = p.dispatchCount
  lastPayloadLen : r.2.lastPayloadLen = p.lastPayloadLen
  only : ∃ more, r.2.matrix.emitted = p.matrix.emitted ++ more ∧
    ∀ f ∈ more, ∃ link, NamesLink proto link ∧ f ∈ link.frames payload
  failed : r.1 = false → r.2.lastProto = p.lastProto
  sent : r.1 = true → ∃ link before, NamesLink proto link ∧ r.2.lastProto = link.name ∧
    r.2.matrix.emitted = p.matrix.emitted ++ before ++ link.frames payload

theorem mem_parts {payload : Bytes} {links : List MatrixLink} {parts : List (List MatrixFrame)}
    (h : List.Forall₂ (fun link part => part <+: link.frames payload) links parts)
    {f : MatrixFrame} (hf : f ∈ parts.flatten) :
    ∃ link : MatrixLink, f ∈ link.frames payload := by
  induction h with
  | nil => cases hf
  | @cons link part links parts hpart _ ih =>
    rw [List.flatten_cons] at hf
    rcases List.mem_append.mp hf with hf | hf
    · exact ⟨link, hpart.subset hf⟩
    · exact ih hf

theorem copyName_link (link : MatrixLink) : copyName 16 link.name = some link.name := by
  cases link <;> decide

theorem transportSend_auto (p : TransportPlugin) (hdrivers : p.drivers = defaultDrivers)
    (payload : Bytes) :
    Sending p (ascii "auto") payload (transportSend p (ascii "auto") payload) := by
  obtain ⟨done, parts, hparts, hdispatch⟩ := default_dispatch p.matrix payload 16
  rw [transportSend, if_pos rfl, hdrivers]
  generalize protocolDispatchAuto defaultDrivers p.matrix payload 16 = d at hdispatch
  dsimp only
  rcases hdispatch with ⟨hret, -, -, hname, hemitted⟩ | ⟨hret, link, rest, -, -, hname, hemitted⟩
  · refine ⟨hdrivers.symm, rfl, rfl, ⟨_, hemitted, ?_⟩, ?_, ?_⟩
    · intro f hf
      obtain ⟨link, hlink⟩ := mem_parts hparts hf
      exact ⟨link, Or.inl rfl, hlink⟩
    · intro _
      simp only [hname, Option.getD_none]
    · intro h
      rw [hret] at h
      cases h
  · refine ⟨hdrivers.symm, rfl, rfl, ⟨_, hemitted.trans (List.append_assoc _ _ _), ?_⟩, ?_, ?_⟩
    · intro f hf
      rcases List.mem_append.mp hf with hf | hf
      · obtain ⟨link, hlink⟩ := mem_parts hparts hf
        exact ⟨link, Or.inl rfl, hlink⟩
      · exact ⟨link, Or.inl rfl, hf⟩
    · intro h
      rw [hret] at h
      cases h
    · intro _
      refine ⟨link, _, Or.inl rfl, ?_, hemitted⟩
      simp only [hname, copyName_link, Option.getD_some]

theorem transportSend_sending (p : TransportPlugin) (hdrivers : p.drivers = defaultDrivers)
    (proto payload : Bytes) : Sending p proto payload (transportSend p proto payload) := by
  by_cases hauto : proto = ascii "auto"
  · rw [hauto]
    exact transportSend_auto p hdrivers payload
  · rw [transportSend, if_neg hauto]
    cases hlink : linkOfName proto with
    | none =>
      refine ⟨rfl, rfl, rfl, ⟨[], (List.append_nil _).symm, ?_⟩, fun _ => rfl, fun h => (nomatch h)⟩
      intro f hf
      cases hf
    | some link =>
      obtain ⟨hput, -⟩ := send_putOut link payload p.matrix
      have hname := linkOfName_some hlink
      simp only
      generalize link.send payload p.matrix = sent at hput
      obtain ⟨ret, pm'⟩ := sent
      cases ret with
      | false =>
        obtain ⟨part, hpart, hemitted⟩ := hput.failed rfl
        refine ⟨rfl, rfl, rfl, ⟨part, hemitted, ?_⟩, fun _ => rfl, fun h => (nomatch h)⟩
        exact fun f hf => ⟨link, Or.inr hlink, hpart.subset hf⟩
      | true =>
        have hemitted := hput.sent rfl
        refine ⟨rfl, rfl, rfl, ⟨_, hemitted, ?_⟩, fun h => (nomatch h), fun _ => ?_⟩
        · exact fun f hf => ⟨link, Or.inr hlink, hf⟩
        · refine ⟨link, [], Or.inr hlink, ?_, ?_⟩
          · have hlen := name_length link
            simp only [if_true, hname, List.take_of_length_le (by omega : link.name.length ≤ 15)]
          · rw [List.append_nil]
            exact hemitted

/-! ## Runs of the plugin -/

/-- The plugin, the arguments of all `dispatch` commands, and those of the ones that were
answered with 1. -/
structure TransportWorld where
  plugin : TransportPlugin
  given : List Bytes
  answered : List Bytes

inductive TransportEvent where
  | init
  | close
  | command (cmd : Bytes) (args : Option Bytes) (outRoom : Nat)

def transportStep (w : TransportWorld) : TransportEvent → Option TransportWorld
  | .init => some { w with plugin := transportInit w.plugin }
  | .close => some { w with plugin := transportClose w.plugin }
  | .command cmd args outRoom =>
    let answer := transportCommand w.plugin cmd args outRoom
    let texts := if cmd = ascii "dispatch" then args.toList else []
    some {
      plugin := answer.plugin
      given := w.given ++ texts
      answered := if answer.ret then w.answered ++ texts else w.answered }

/-- What the commands that were answered with 1 have sent, and where. -/
structure TransportOk (w : TransportWorld) : Prop where
  drivers : w.plugin.drivers = defaultDrivers
  only : ∀ f ∈ w.plugin.matrix.emitted, ∃ text ∈ w.given, ∃ link payload,
    TypedFor text link payload ∧ f ∈ link.frames payload
  carried : ∃ done : List (MatrixLink × Bytes),
    List.Forall₂ (fun text sent => TypedFor text sent.1 sent.2) w.answered done ∧
    (done.flatMap fun sent => sent.1.frames sent.2).Sublist w.plugin.matrix.emitted ∧
    w.plugin.dispatchCount = UInt64.ofNat done.length ∧
    w.plugin.lastProto = (done.getLast?.map fun sent => sent.1.name).getD [] ∧
    w.plugin.lastPayloadLen =
      UInt64.ofNat ((done.getLast?.map fun sent => sent.2.length).getD 0)

theorem transportOk_init (emitFn : Option (List MatrixFrame → MatrixFrame → Bool)) :
    TransportOk ⟨transportInitCtx defaultDrivers (matrixInit emitFn), [], []⟩ where
  drivers := rfl
  only := by
    intro f hf
    cases hf
  carried := ⟨[], .nil, List.Sublist.refl _, rfl, rfl, rfl⟩

/-- A command leaves the plugin as it is and counts for nothing, or it sends a payload. -/
inductive CommandCase (w : TransportWorld) (cmd : Bytes) (args : Option Bytes) :
    TransportAnswer → Prop
  | idle {answer : TransportAnswer} : answer.plugin = w.plugin →
      (answer.ret = true → cmd ≠ ascii "dispatch") → CommandCase w cmd args answer
  | sends {answer : TransportAnswer} {text proto hex payload : Bytes} :
      cmd = ascii "dispatch" → args = some text → scanDispatch text = some (proto, hex) →
      transportHexToBytes hex 512 = some payload →
      answer.ret = (transportSend w.plugin proto payload).1 →
      answer.plugin = (if answer.ret then { (transportSend w.plugin proto payload).2 with
        dispatchCount := (transportSend w.plugin proto payload).2.dispatchCount + 1
        lastPayloadLen := UInt64.ofNat payload.length }
      else (transportSend w.plugin proto payload).2) → CommandCase w cmd args answer

theorem transportCommand_case (w : TransportWorld) (cmd : Bytes) (args : Option Bytes)
    (outRoom : Nat) :
    CommandCase w cmd args (transportCommand w.plugin cmd args outRoom) := by
  unfold transportCommand
  split
  · rename_i hstatus
    refine .idle rfl fun _ => ?_
    rw [hstatus]
    decide
  split
  · rename_i hdispatch
    split
    · exact .idle rfl fun h => (nomatch h)
    · rename_i proto hex hscan
      obtain ⟨text, htext, hscan⟩ := Option.bind_eq_some_iff.mp hscan
      split
      · exact .idle rfl fun h => (nomatch h)
      · rename_i payload hhex
        dsimp only
        split
        · rename_i hfail
          exact .sends hdispatch htext hscan hhex hfail.symm rfl
        · rename_i hgood
          exact .sends hdispatch htext hscan hhex (Bool.not_eq_false _ ▸ hgood).symm rfl
  · exact .idle rfl fun h => (nomatch h)

theorem flatMap_frames_append (done : List (MatrixLink × Bytes)) (link : MatrixLink)
    (payload : Bytes) : (done ++ [(link, payload)]).flatMap (fun sent => sent.1.frames sent.2) =
      done.flatMap (fun sent => sent.1.frames sent.2) ++ link.frames payload := by
  rw [List.flatMap_append, List.flatMap_singleton]

/-- Frames that were typed for before are typed for still, and so are those of a new text. -/
theorem only_typed {w : TransportWorld} (hok : TransportOk w) {p : TransportPlugin}
    {proto text payload : Bytes} {r : Bool × TransportPlugin}
    (hsend : Sending w.plugin proto payload r)
    (htyped : ∀ link, NamesLink proto link → TypedFor text link payload)
    (hmatrix : p.matrix = r.2.matrix) : ∀ f ∈ p.matrix.emitted, ∃ t ∈ w.given ++ [text],
      ∃ link payload, TypedFor t link payload ∧ f ∈ link.frames payload := by
  obtain ⟨more, hemitted, hmore⟩ := hsend.only
  intro f hf
  rw [hmatrix, hemitted] at hf
  rcases List.mem_append.mp hf with hf | hf
  · obtain ⟨t, ht, hrest⟩ := hok.only f hf
    exact ⟨t, List.mem_append_left _ ht, hrest⟩
  · obtain ⟨link, hname, hlink⟩ := hmore f hf
    exact ⟨text, List.mem_append_right _ (List.mem_singleton_self text), link, payload,
      htyped link hname, hlink⟩

/-- A text that has been given and sent nothing changes nothing. -/
theorem given_more {w : TransportWorld} (hok : TransportOk w) (texts : List Bytes) :
    TransportOk ⟨w.plugin, w.given ++ texts, w.answered⟩ where
  drivers := hok.drivers
  only := by
    intro f hf
    obtain ⟨text, htext, hrest⟩ := hok.only f hf
    exact ⟨text, List.mem_append_left _ htext, hrest⟩
  carried := hok.carried

theorem send_failed_keeps {w : TransportWorld} (hok : TransportOk w) {proto text payload : Bytes}
    {r : Bool × TransportPlugin} (hsend : Sending w.plugin proto payload r)
    (htyped : ∀ link, NamesLink proto link → TypedFor text link payload) (hret : r.1 = false) :
    TransportOk ⟨r.2, w.given ++ [text], w.answered⟩ where
  drivers := hsend.drivers.trans hok.drivers
  only := only_typed hok hsend htyped rfl
  carried := by
    obtain ⟨done, hdone, hsub, hcount, hproto, hlen⟩ := hok.carried
    obtain ⟨more, hemitted, -⟩ := hsend.only
    refine ⟨done, hdone, ?_, hsend.dispatchCount.trans hcount, (hsend.failed hret).trans hproto,
      hsend.lastPayloadLen.trans hlen⟩
    rw [hemitted]
    exact hsub.trans (List.sublist_append_left _ _)

theorem send_sent_keeps {w : TransportWorld} (hok : TransportOk w) {proto text payload : Bytes}
    {r : Bool × TransportPlugin} (hsend : Sending w.plugin proto payload r)
    (htyped : ∀ link, NamesLink proto link → TypedFor text link payload) (hret : r.1 = true) :
    TransportOk ⟨{ r.2 with
      dispatchCount := r.2.dispatchCount + 1
      lastPayloadLen := UInt64.ofNat payload.length }, w.given ++ [text],
      w.answered ++ [text]⟩ where
  drivers := hsend.drivers.trans hok.drivers
  only := only_typed hok hsend htyped rfl
  carried := by
    obtain ⟨done, hdone, hsub, hcount, -, -⟩ := hok.carried
    obtain ⟨link, before, hname, hproto, hemitted⟩ := hsend.sent hret
    refine ⟨done ++ [(link, payload)], ?_, ?_, ?_, ?_, ?_⟩
    · exact List.rel_append hdone (.cons (htyped link hname) .nil)
    · rw [flatMap_frames_append, hemitted]
      exact (hsub.trans (List.sublist_append_left _ _)).append (List.Sublist.refl _)
    · rw [hsend.dispatchCount, hcount, List.length_append, List.length_singleton,
        UInt64.ofNat_add]
      rfl
    · rw [List.getLast?_concat, hproto]
      rfl
    · rw [List.getLast?_concat]
      rfl

theorem transportStep_keeps (w : TransportWorld) (e : TransportEvent) (w' : TransportWorld)
    (hok : TransportOk w) (h : transportStep w e = some w') : TransportOk w' := by
  cases e with
  | init =>
    cases h
    exact ⟨hok.drivers, hok.only, hok.carried⟩
  | close =>
    cases h
    exact ⟨hok.drivers, hok.only, hok.carried⟩
  | command cmd args outRoom =>
    have hcase := transportCommand_case w cmd args outRoom
    simp only [transportStep, Option.some.injEq] at h
    generalize transportCommand w.plugin cmd args outRoom = answer at hcase h
    subst h
    cases hcase with
    | idle hplugin hret =>
      have hanswered : (if answer.ret then w.answered ++
          (if cmd = ascii "dispatch" then args.toList else []) else w.answered) = w.answered := by
        split
        · rename_i hgood
          rw [if_neg (hret hgood), List.append_nil]
        · rfl
      rw [hplugin, hanswered]
      exact given_more hok _
    | @sends text proto hex payload hcmd hargs hscan hhex hret hplugin =>
      have hsend := transportSend_sending w.plugin hok.drivers proto payload
      have htyped : ∀ link, NamesLink proto link → TypedFor text link payload :=
        fun _ hname => scanDispatch_typed hscan hhex hname
      rw [hcmd, hargs, if_pos rfl, hplugin, hret, Option.toList_some]
      cases hsent : (transportSend w.plugin proto payload).1 with
      | false => exact send_failed_keeps hok hsend htyped hsent
      | true => exact send_sent_keeps hok hsend htyped hsent

/-- Whatever the emit callback does and whatever commands are given: what goes out are frames
of payloads that were typed, and `dispatch_count`, `last_proto` and `last_payload_len` are
those of the commands that were answered with 1, all of whose frames have gone out in order. -/
theorem transport_carries_typed {emitFn : Option (List MatrixFrame → MatrixFrame → Bool)}
    {es : List TransportEvent} {w : TransportWorld}
    (hrun : run transportStep
      ⟨transportInitCtx defaultDrivers (matrixInit emitFn), [], []⟩ es = some w) :
    TransportOk w :=
  run_invariant transportStep transportStep_keeps (transportOk_init emitFn) hrun

/-- Two bytes over TCP, a text of three digits, and the two bytes over CAN. -/
def typedCommands : List TransportEvent :=
  [.init, .command (ascii "dispatch") (some (ascii "tcp 0aFF")) 63,
    .command (ascii "dispatch") (some (ascii "tcp 0aF")) 63,
    .command (ascii "dispatch") (some (ascii " can\t0AFF x")) 63, .close]

theorem typedCommands_carried :
    ∃ w, run transportStep ⟨transportInitCtx defaultDrivers (matrixInit takesAll), [], []⟩
        typedCommands = some w ∧
      w.plugin.dispatchCount = 2 ∧ w.plugin.lastProto = ascii "can" ∧ TransportOk w := by
  have hcounted : (run transportStep
      ⟨transportInitCtx defaultDrivers (matrixInit takesAll), [], []⟩ typedCommands).map
        (fun w => (w.plugin.dispatchCount, w.plugin.lastProto)) = some (2, ascii "can") := by
    decide +kernel
  obtain ⟨w, hrun, hw⟩ := Option.map_eq_some_iff.mp hcounted
  obtain ⟨hcount, hproto⟩ := Prod.mk.inj hw
  exact ⟨w, hrun, hcount, hproto, transport_carries_typed hrun⟩

end Osfx
