import Osfx.Lib.Text
import Osfx.FusionState

/-!
# The template grammar

`osfx_template_grammar.c`: the text a node and its sensors are written as, and how
it is read. Tokens are C strings, so bytes other than 0. `templateDecode_text` is
the round trip: a text whose tokens avoid the separators behind them and fit their
fields is read back token by token.
-/

namespace Osfx

open Text

def hash : UInt8 := 35
def bang : UInt8 := 33
def atSign : UInt8 := 64

/-- `OSFX_TMPL_ID_MAX` ... `OSFX_TMPL_URL_MAX`: the sizes of the token fields. -/
def tmplIdMax : Nat := 32
def tmplStateMax : Nat := 16
def tmplUnitMax : Nat := 24
def tmplValueMax : Nat := 48
def tmplTsMax : Nat := 32
def tmplGeohashMax : Nat := 32
def tmplMsgMax : Nat := 128
def tmplUrlMax : Nat := 128

structure SensorSlot where
  sensorId : Bytes
  sensorState : Bytes
  sensorUnit : Bytes
  sensorValue : Bytes
  geohashId : Bytes
  supplementaryMessage : Bytes
  resourceUrl : Bytes
  deriving DecidableEq, Repr

structure TemplateMsg where
  nodeId : Bytes
  nodeState : Bytes
  tsToken : Bytes
  sensors : List SensorSlot
  deriving DecidableEq, Repr

/-- The switches that decide which extensions a build has. -/
structure Extensions where
  geohashId : Bool
  supplementaryMessage : Bool
  resourceUrl : Bool
  deriving DecidableEq, Repr

/-! ## osfx_template_encode -/

/-- One `snprintf` into what is left of the buffer. -/
def put (outCap : Nat) (out text : Bytes) : Option Bytes :=
  if outCap ≤ out.length + text.length then none else some (out ++ text)

/-- An extension, where the build has it and the slot sets it. -/
def putExtension (outCap : Nat) (enabled : Bool) (mark : UInt8) (token : Bytes) (out : Bytes) :
    Option Bytes :=
  if enabled = true ∧ token ≠ [] then put outCap out (mark :: token) else some out

def putSensor (exts : Extensions) (outCap : Nat) (out : Bytes) (s : SensorSlot) : Option Bytes := do
  let out ← put outCap out (s.sensorId ++ gt :: (s.sensorState ++ dot :: (s.sensorUnit ++
    colon :: s.sensorValue)))
  let out ← putExtension outCap exts.geohashId hash s.geohashId out
  let out ← putExtension outCap exts.supplementaryMessage bang s.supplementaryMessage out
  let out ← putExtension outCap exts.resourceUrl atSign s.resourceUrl out
  put outCap out [bar]

def templateEncode (exts : Extensions) (maxSensors : Nat) (msg : TemplateMsg) (outCap : Nat) :
    Option Bytes :=
  if outCap = 0 ∨ maxSensors < msg.sensors.length then none
  else do
    let out ← put outCap [] (msg.nodeId ++ dot ::
      (msg.nodeState ++ dot :: (msg.tsToken ++ [bar])))
    msg.sensors.foldlM (putSensor exts outCap) out

/-! ## osfx_template_decode -/

/-- `copy_token`. -/
def copyToken (cap : Nat) (src : Bytes) : Option Bytes :=
  if cap < src.length + 1 then none else some src

def isMarker (b : UInt8) : Bool := b = hash || b = bang || b = atSign

/-- The bytes before the next extension marker. -/
def beforeMarker (p : Bytes) : Bytes := p.takeWhile fun b => !isMarker b

/-- The next extension marker, and what follows. -/
def fromMarker (p : Bytes) : Bytes := p.dropWhile fun b => !isMarker b

/-- Store the token behind a marker, if the build has the extension. -/
def storeExtension (exts : Extensions) (mark : UInt8) (token : Bytes) (s : SensorSlot) :
    Option SensorSlot :=
  if mark = hash then
    if exts.geohashId then
      (copyToken tmplGeohashMax token).map fun t => { s with geohashId := t }
    else some s
  else if mark = bang then
    if exts.supplementaryMessage then
      (copyToken tmplMsgMax token).map fun t => { s with supplementaryMessage := t }
    else some s
  else if mark = atSign then
    if exts.resourceUrl then
      (copyToken tmplUrlMax token).map fun t => { s with resourceUrl := t }
    else some s
  else some s

/-- The loop over the extensions; every turn takes its marker. -/
def readExtensions (exts : Extensions) : Nat → Bytes → SensorSlot → Option SensorSlot
  | _, [], s => some s
  | 0, _, s => some s
  | turns + 1, mark :: p, s => do
    let s ← storeExtension exts mark (beforeMarker p) s
    readExtensions exts turns (fromMarker p) s

/-- A segment, without its closing '|'. -/
def readSensor (exts : Extensions) (seg : Bytes) : Option SensorSlot := do
  let (sensorId, p) ← cutFirst gt seg
  let (sensorState, p) ← cutFirst dot p
  let (sensorUnit, p) ← cutFirst colon p
  let sensorId ← copyToken tmplIdMax sensorId
  let sensorState ← copyToken tmplStateMax sensorState
  let sensorUnit ← copyToken tmplUnitMax sensorUnit
  let sensorValue ← copyToken tmplValueMax (beforeMarker p)
  readExtensions exts (fromMarker p).length (fromMarker p)
    ⟨sensorId, sensorState, sensorUnit, sensorValue, [], [], []⟩

/-- The loop over the segments: empty ones are skipped, one too many is an error. -/
def readSensors (exts : Extensions) (maxSensors : Nat) :
    List Bytes → List SensorSlot → Option (List SensorSlot)
  | [], done => some done
  | [] :: segs, done => readSensors exts maxSensors segs done
  | seg :: segs, done =>
    if maxSensors ≤ done.length then none
    else do
      let s ← readSensor exts seg
      readSensors exts maxSensors segs (done ++ [s])

/-- A last segment that is not closed is left out: the loop breaks there. -/
def templateDecode (exts : Extensions) (maxSensors : Nat) (text : Bytes) : Option TemplateMsg := do
  let (header, p) ← cutFirst bar text
  let (nodeId, rest) ← cutFirst dot header
  let (nodeState, tsToken) ← cutFirst dot rest
  let nodeId ← copyToken tmplIdMax nodeId
  let nodeState ← copyToken tmplStateMax nodeState
  let tsToken ← copyToken tmplTsMax tsToken
  let sensors ← readSensors exts maxSensors (p.splitOn bar).dropLast []
  return ⟨nodeId, nodeState, tsToken, sensors⟩

/-! ## The text of a message -/

/-- The extensions a slot is written with, each behind its marker. -/
def extensionItems (exts : Extensions) (s : SensorSlot) : List (UInt8 × Bytes) :=
  (if exts.geohashId = true ∧ s.geohashId ≠ [] then [(hash, s.geohashId)] else []) ++
  (if exts.supplementaryMessage = true ∧ s.supplementaryMessage ≠ [] then
    [(bang, s.supplementaryMessage)] else []) ++
  (if exts.resourceUrl = true ∧ s.resourceUrl ≠ [] then [(atSign, s.resourceUrl)] else [])

def itemsText (items : List (UInt8 × Bytes)) : Bytes := items.flatMap fun item => item.1 :: item.2

/-- Value and extensions, all that follows the ':'. -/
def SensorSlot.valueText (exts : Extensions) (s : SensorSlot) : Bytes :=
  s.sensorValue ++ itemsText (extensionItems exts s)

def SensorSlot.text (exts : Extensions) (s : SensorSlot) : Bytes :=
  s.sensorId ++ gt :: (s.sensorState ++ dot :: (s.sensorUnit ++ colon :: s.valueText exts))

def TemplateMsg.header (msg : TemplateMsg) : Bytes :=
  msg.nodeId ++ dot :: (msg.nodeState ++ dot :: msg.tsToken)

def TemplateMsg.text (exts : Extensions) (msg : TemplateMsg) : Bytes :=
  msg.header ++ bar :: ended bar (msg.sensors.map (SensorSlot.text exts))

theorem put_eq (outCap : Nat) (out text : Bytes) :
    put outCap out text = if (out ++ text).length < outCap then some (out ++ text) else none := by
  unfold put
  rw [List.length_append]
  split
  · rw [if_neg (by omega)]
  · rw [if_pos (by omega)]

theorem putExtension_eq {outCap : Nat} {out : Bytes} (hout : out.length < outCap) (enabled : Bool)
    (mark : UInt8) (token : Bytes) : putExtension outCap enabled mark token out =
      put outCap out (itemsText (if enabled = true ∧ token ≠ [] then [(mark, token)] else [])) := by
  unfold putExtension
  split
  · simp [itemsText]
  · rw [put_eq]
    simp [itemsText, hout]

/-- Two writes are one. -/
theorem put_bind_put (outCap : Nat) (out a b : Bytes) :
    ((put outCap out a).bind fun out => put outCap out b) = put outCap out (a ++ b) := by
  rw [put_eq, put_eq]
  by_cases h : (out ++ a).length < outCap
  · rw [if_pos h, Option.bind_some, put_eq, List.append_assoc]
  · rw [if_neg h, Option.bind_none, if_neg]
    simp only [List.length_append] at h ⊢
    omega

theorem put_some {outCap : Nat} {out text out' : Bytes} (h : put outCap out text = some out') :
    out'.length < outCap := by
  rw [put_eq] at h
  split at h
  · cases h
    assumption
  · cases h

theorem putSensor_eq (exts : Extensions) (outCap : Nat) (out : Bytes) (s : SensorSlot) :
    putSensor exts outCap out s = put outCap out (s.text exts ++ [bar]) := by
  have htext : s.text exts ++ [bar] =
      (s.sensorId ++ gt :: (s.sensorState ++ dot :: (s.sensorUnit ++ colon :: s.sensorValue))) ++
        (itemsText (if exts.geohashId = true ∧ s.geohashId ≠ [] then
          [(hash, s.geohashId)] else []) ++
        (itemsText (if exts.supplementaryMessage = true ∧ s.supplementaryMessage ≠ [] then
          [(bang, s.supplementaryMessage)] else []) ++
        (itemsText (if exts.resourceUrl = true ∧ s.resourceUrl ≠ [] then
          [(atSign, s.resourceUrl)] else []) ++ [bar]))) := by
    simp [SensorSlot.text, SensorSlot.valueText, extensionItems, itemsText]
  have hextend : ∀ {out : Bytes} {text : Bytes} (enabled : Bool) (mark : UInt8) (token : Bytes)
      (k : Bytes → Option Bytes), ((put outCap out text).bind fun out =>
        (putExtension outCap enabled mark token out).bind k) =
      (put outCap out (text ++ itemsText
        (if enabled = true ∧ token ≠ [] then [(mark, token)] else []))).bind k := by
    intro out text enabled mark token k
    rw [← put_bind_put]
    cases hput : put outCap out text with
    | none => rfl
    | some out' => rw [Option.bind_some, Option.bind_some, putExtension_eq (put_some hput)]
  rw [htext]
  simp only [putSensor, Option.bind_eq_bind, hextend, put_bind_put, List.append_assoc]

theorem foldlM_putSensor (exts : Extensions) (outCap : Nat) (sensors : List SensorSlot)
    {out : Bytes} (hout : out.length < outCap) : sensors.foldlM (putSensor exts outCap) out =
      put outCap out (ended bar (sensors.map (SensorSlot.text exts))) := by
  induction sensors generalizing out with
  | nil =>
    rw [put_eq]
    simp [ended, hout]
  | cons s sensors ih =>
    have hsplit : ended bar ((s :: sensors).map (SensorSlot.text exts)) =
        (s.text exts ++ [bar]) ++ ended bar (sensors.map (SensorSlot.text exts)) := by
      simp [ended]
    have htwo := put_bind_put outCap out (s.text exts ++ [bar])
      (ended bar (sensors.map (SensorSlot.text exts)))
    rw [List.foldlM_cons, putSensor_eq, hsplit, ← htwo]
    cases hput : put outCap out (s.text exts ++ [bar]) with
    | none => rfl
    | some out' => exact ih (put_some hput)

/-- A message of not too many sensors is written exactly if its text fits, NUL
included. -/
theorem templateEncode_eq (exts : Extensions) (maxSensors : Nat) (msg : TemplateMsg)
    (outCap : Nat) : templateEncode exts maxSensors msg outCap =
      if msg.sensors.length ≤ maxSensors ∧ (msg.text exts).length < outCap then
        some (msg.text exts)
      else none := by
  have htext : msg.text exts = (msg.nodeId ++ dot :: (msg.nodeState ++ dot :: (msg.tsToken ++
      [bar]))) ++ ended bar (msg.sensors.map (SensorSlot.text exts)) := by
    simp [TemplateMsg.text, TemplateMsg.header]
  unfold templateEncode
  by_cases hmany : maxSensors < msg.sensors.length
  · rw [if_pos (Or.inr hmany), if_neg (fun h => by omega)]
  by_cases hcap : outCap = 0
  · rw [if_pos (Or.inl hcap), if_neg (fun h => by omega)]
  rw [if_neg (by omega)]
  have hput := put_bind_put outCap [] (msg.nodeId ++ dot :: (msg.nodeState ++ dot ::
    (msg.tsToken ++ [bar]))) (ended bar (msg.sensors.map (SensorSlot.text exts)))
  rw [← htext, put_eq outCap [] (msg.text exts), List.nil_append] at hput
  simp only [Nat.not_lt.mp hmany, true_and]
  rw [← hput]
  cases hhead : put outCap [] (msg.nodeId ++ dot :: (msg.nodeState ++ dot ::
      (msg.tsToken ++ [bar]))) with
  | none => rfl
  | some out => exact foldlM_putSensor exts outCap msg.sensors (put_some hhead)

/-! ## Reading a message back -/

/-- A token that fits its field and avoids the separators behind it. -/
def FitsToken (cap : Nat) (seps token : Bytes) : Prop :=
  token.length < cap ∧ ∀ b ∈ token, b ∉ seps

instance (cap : Nat) (seps token : Bytes) : Decidable (FitsToken cap seps token) :=
  @instDecidableAnd _ _ (Nat.decLt _ _) (List.decidableBAll _ token)

theorem fitsToken_nil {cap : Nat} (hcap : 0 < cap) (seps : Bytes) : FitsToken cap seps [] :=
  ⟨hcap, fun _ hb => absurd hb List.not_mem_nil⟩

/-- What ends the text, and a segment of it. -/
def textEnds : Bytes := [0, bar]

/-- What ends a value or an extension. -/
def valueSeps : Bytes := hash :: bang :: atSign :: textEnds

/-- A slot that is read back as it is written. A build without an extension has no
field for it. -/
structure SensorSlot.Ok (exts : Extensions) (s : SensorSlot) : Prop where
  id : FitsToken tmplIdMax (gt :: textEnds) s.sensorId
  state : FitsToken tmplStateMax (dot :: textEnds) s.sensorState
  unit : FitsToken tmplUnitMax (colon :: textEnds) s.sensorUnit
  value : FitsToken tmplValueMax valueSeps s.sensorValue
  geohash : FitsToken tmplGeohashMax valueSeps s.geohashId
  message : FitsToken tmplMsgMax valueSeps s.supplementaryMessage
  url : FitsToken tmplUrlMax valueSeps s.resourceUrl
  geohash_off : exts.geohashId = false → s.geohashId = []
  message_off : exts.supplementaryMessage = false → s.supplementaryMessage = []
  url_off : exts.resourceUrl = false → s.resourceUrl = []

structure TemplateMsg.Ok (exts : Extensions) (maxSensors : Nat) (msg : TemplateMsg) : Prop where
  id : FitsToken tmplIdMax (dot :: textEnds) msg.nodeId
  state : FitsToken tmplStateMax (dot :: textEnds) msg.nodeState
  ts : FitsToken tmplTsMax textEnds msg.tsToken
  sensors : ∀ s ∈ msg.sensors, s.Ok exts
  count : msg.sensors.length ≤ maxSensors

theorem FitsToken.copyToken {cap : Nat} {seps token : Bytes} (h : FitsToken cap seps token) :
    copyToken cap token = some token := by
  have hlt := h.1
  rw [Osfx.copyToken, if_neg (by omega)]

theorem FitsToken.not_mem {cap : Nat} {seps token : Bytes} (h : FitsToken cap seps token)
    {b : UInt8} (hb : b ∈ seps) : b ∉ token :=
  fun hmem => h.2 b hmem hb

/-- A separator that a token avoids cuts the text where the token ends. -/
theorem FitsToken.cutFirst {cap : Nat} {seps token : Bytes} (h : FitsToken cap seps token)
    {b : UInt8} (hb : b ∈ seps) (rest : Bytes) :
    Text.cutFirst b (token ++ b :: rest) = some (token, rest) :=
  cutFirst_eq_some.mpr ⟨rfl, h.not_mem hb⟩

/-- Only a marker can follow a value or an extension. -/
def MarkedItems (items : List (UInt8 × Bytes)) : Prop :=
  ∀ item ∈ items, isMarker item.1 = true ∧ ∀ b ∈ item.2, isMarker b = false

theorem isMarker_eq_false {cap : Nat} {token : Bytes} (h : FitsToken cap valueSeps token) :
    ∀ b ∈ token, isMarker b = false := by
  intro b hb
  have hsep := h.2 b hb
  simp only [valueSeps, List.mem_cons, not_or] at hsep
  simp [isMarker, hsep.1, hsep.2.1, hsep.2.2.1]

theorem marker_cut {token : Bytes} (htoken : ∀ b ∈ token, isMarker b = false)
    {items : List (UInt8 × Bytes)} (hitems : MarkedItems items) :
    beforeMarker (token ++ itemsText items) = token ∧
      fromMarker (token ++ itemsText items) = itemsText items := by
  have hskip : ∀ b ∈ token, (!isMarker b) = true := by
    intro b hb
    rw [htoken b hb]
    rfl
  simp only [beforeMarker, fromMarker]
  rw [List.takeWhile_append_of_pos hskip, List.dropWhile_append_of_pos hskip]
  cases items with
  | nil => simp [itemsText]
  | cons item items =>
    have hmark := (hitems item List.mem_cons_self).1
    simp [itemsText, hmark]

/-- The loop stores the extensions one by one. -/
theorem readExtensions_items (exts : Extensions) {items : List (UInt8 × Bytes)}
    (hitems : MarkedItems items) {turns : Nat} (hturns : (itemsText items).length ≤ turns)
    (s : SensorSlot) : readExtensions exts turns (itemsText items) s =
      items.foldlM (fun s item => storeExtension exts item.1 item.2 s) s := by
  induction items generalizing turns s with
  | nil => cases turns <;> rfl
  | cons item items ih =>
    have hrest : MarkedItems items := fun x hx => hitems x (List.mem_cons_of_mem item hx)
    have htext : itemsText (item :: items) = item.1 :: (item.2 ++ itemsText items) := by
      simp [itemsText]
    rw [htext, List.length_cons, List.length_append] at hturns
    obtain ⟨turns, rfl⟩ : ∃ n, turns = n + 1 := ⟨turns - 1, by omega⟩
    obtain ⟨hbefore, hfrom⟩ := marker_cut (hitems item List.mem_cons_self).2 hrest
    rw [htext, readExtensions, hbefore, hfrom, List.foldlM_cons]
    cases storeExtension exts item.1 item.2 s with
    | none => rfl
    | some s => exact ih hrest (by omega) s

/-- An extension that is written is stored, one that is not leaves its field empty. -/
theorem foldlM_storeExtension (exts : Extensions) {enabled : Bool} (mark : UInt8) (token : Bytes)
    (s s' : SensorSlot) (hoff : enabled = false → token = []) (hempty : token = [] → s' = s)
    (hstore : enabled = true → storeExtension exts mark token s = some s') :
    (if enabled = true ∧ token ≠ [] then [(mark, token)] else []).foldlM
      (fun s item => storeExtension exts item.1 item.2 s) s = some s' := by
  split
  · rename_i hset
    rw [List.foldlM_cons, hstore hset.1]
    rfl
  · rename_i hunset
    have htoken : token = [] := by
      cases enabled with
      | false => exact hoff rfl
      | true => simpa using hunset
    rw [hempty htoken]
    rfl

theorem mem_valueSeps {b : UInt8} (hb : b ∈ textEnds) : b ∈ valueSeps :=
  List.mem_cons_of_mem hash (List.mem_cons_of_mem bang (List.mem_cons_of_mem atSign hb))

theorem mem_textEnds {b : UInt8} : b ∈ textEnds ↔ b = 0 ∨ b = bar := by
  simp [textEnds]

theorem ends_not_marks {b : UInt8} (hb : b ∈ textEnds) :
    ¬ (b = gt ∨ b = dot ∨ b = colon ∨ isMarker b = true) := by
  obtain rfl | rfl := mem_textEnds.mp hb
  · decide
  · decide

theorem mem_extensionItems {exts : Extensions} {s : SensorSlot} {item : UInt8 × Bytes}
    (h : item ∈ extensionItems exts s) :
    item = (hash, s.geohashId) ∨ item = (bang, s.supplementaryMessage) ∨
      item = (atSign, s.resourceUrl) := by
  have hone : ∀ {p : Prop} [Decidable p] {x : UInt8 × Bytes},
      item ∈ (if p then [x] else []) → item = x := by
    intro p _ x hx
    split at hx
    · exact List.mem_singleton.mp hx
    · cases hx
  simp only [extensionItems, List.mem_append] at h
  obtain (h | h) | h := h
  · exact Or.inl (hone h)
  · exact Or.inr (Or.inl (hone h))
  · exact Or.inr (Or.inr (hone h))

theorem isMarker_of_mem {exts : Extensions} {s : SensorSlot} {item : UInt8 × Bytes}
    (h : item ∈ extensionItems exts s) : isMarker item.1 = true := by
  obtain rfl | rfl | rfl := mem_extensionItems h
  · rfl
  · rfl
  · rfl

namespace SensorSlot.Ok

variable {exts : Extensions} {s : SensorSlot}

/-- A marker leads each extension, and none of them has a separator in it. -/
theorem mem_extensionItems (h : s.Ok exts) {item : UInt8 × Bytes}
    (hitem : item ∈ extensionItems exts s) :
    isMarker item.1 = true ∧ ∃ cap, FitsToken cap valueSeps item.2 := by
  refine ⟨isMarker_of_mem hitem, ?_⟩
  obtain rfl | rfl | rfl := Osfx.mem_extensionItems hitem
  · exact ⟨tmplGeohashMax, h.geohash⟩
  · exact ⟨tmplMsgMax, h.message⟩
  · exact ⟨tmplUrlMax, h.url⟩

theorem markedItems (h : s.Ok exts) : MarkedItems (extensionItems exts s) := by
  intro item hitem
  obtain ⟨hmark, cap, hfits⟩ := h.mem_extensionItems hitem
  exact ⟨hmark, isMarker_eq_false hfits⟩

theorem foldlM_extensionItems (h : s.Ok exts) :
    (extensionItems exts s).foldlM (fun s item => storeExtension exts item.1 item.2 s)
      ⟨s.sensorId, s.sensorState, s.sensorUnit, s.sensorValue, [], [], []⟩ = some s := by
  have hgeohash := foldlM_storeExtension exts hash s.geohashId
    ⟨s.sensorId, s.sensorState, s.sensorUnit, s.sensorValue, [], [], []⟩
    ⟨s.sensorId, s.sensorState, s.sensorUnit, s.sensorValue, s.geohashId, [], []⟩
    h.geohash_off (fun hnil => by rw [hnil])
    (fun hon => by simp [storeExtension, hon, h.geohash.copyToken])
  have hmessage := foldlM_storeExtension exts bang s.supplementaryMessage
    ⟨s.sensorId, s.sensorState, s.sensorUnit, s.sensorValue, s.geohashId, [], []⟩
    ⟨s.sensorId, s.sensorState, s.sensorUnit, s.sensorValue, s.geohashId,
      s.supplementaryMessage, []⟩
    h.message_off (fun hnil => by rw [hnil])
    (fun hon => by simp [storeExtension, hash, bang, hon, h.message.copyToken])
  have hurl := foldlM_storeExtension exts atSign s.resourceUrl
    ⟨s.sensorId, s.sensorState, s.sensorUnit, s.sensorValue, s.geohashId,
      s.supplementaryMessage, []⟩ s
    h.url_off (fun hnil => by rw [← hnil])
    (fun hon => by simp [storeExtension, hash, bang, atSign, hon, h.url.copyToken])
  rw [extensionItems, List.foldlM_append, List.foldlM_append, hgeohash, Option.bind_eq_bind,
    Option.bind_some, hmessage, Option.bind_some, hurl]

/-- A segment is read back as the slot it was written for. -/
theorem readSensor_text (h : s.Ok exts) : readSensor exts (s.text exts) = some s := by
  obtain ⟨hbefore, hfrom⟩ := marker_cut (isMarker_eq_false h.value) h.markedItems
  have hid := h.id.cutFirst (b := gt) (by decide)
  have hstate := h.state.cutFirst (b := dot) (by decide)
  have hunit := h.unit.cutFirst (b := colon) (by decide)
  have hexts := readExtensions_items exts h.markedItems (Nat.le_refl _)
    ⟨s.sensorId, s.sensorState, s.sensorUnit, s.sensorValue, [], [], []⟩
  simp only [readSensor, text, valueText, hid, hstate, hunit, hbefore, hfrom, h.id.copyToken,
    h.state.copyToken, h.unit.copyToken, h.value.copyToken, Option.bind_eq_bind, Option.bind_some,
    hexts, h.foldlM_extensionItems]

theorem not_mem_items (h : s.Ok exts) {b : UInt8} (hb : b ∈ textEnds) :
    b ∉ itemsText (extensionItems exts s) := by
  intro hitems
  obtain ⟨item, hitem, hmem⟩ := List.mem_flatMap.mp hitems
  obtain ⟨hmark, cap, hfits⟩ := h.mem_extensionItems hitem
  obtain heq | hmem := List.mem_cons.mp hmem
  · rw [← heq] at hmark
    exact ends_not_marks hb (Or.inr (Or.inr (Or.inr hmark)))
  · exact hfits.not_mem (mem_valueSeps hb) hmem

/-- Neither a NUL nor a '|' is in a segment. -/
theorem not_mem_text (h : s.Ok exts) {b : UInt8} (hb : b ∈ textEnds) : b ∉ s.text exts := by
  have hmarks := ends_not_marks hb
  simp only [not_or] at hmarks
  have hid := h.id.not_mem (List.mem_cons_of_mem gt hb)
  have hstate := h.state.not_mem (List.mem_cons_of_mem dot hb)
  have hunit := h.unit.not_mem (List.mem_cons_of_mem colon hb)
  have hvalue := h.value.not_mem (mem_valueSeps hb)
  have hitems := h.not_mem_items hb
  simp only [text, valueText, List.mem_append, List.mem_cons, not_or]
  exact ⟨hid, hmarks.1, hstate, hmarks.2.1, hunit, hmarks.2.2.1, hvalue, hitems⟩

end SensorSlot.Ok

theorem SensorSlot.text_ne_nil (exts : Extensions) (s : SensorSlot) : s.text exts ≠ [] := by
  simp [SensorSlot.text]

theorem readSensors_text {exts : Extensions} {maxSensors : Nat} {sensors : List SensorSlot}
    (hok : ∀ s ∈ sensors, s.Ok exts) (done : List SensorSlot)
    (hcount : done.length + sensors.length ≤ maxSensors) :
    readSensors exts maxSensors (sensors.map (SensorSlot.text exts)) done =
      some (done ++ sensors) := by
  induction sensors generalizing done with
  | nil => simp [readSensors]
  | cons s sensors ih =>
    have hread := (hok s List.mem_cons_self).readSensor_text
    have hrest := ih (fun x hx => hok x (List.mem_cons_of_mem s hx)) (done ++ [s])
      (by simp only [List.length_append, List.length_cons, List.length_nil] at hcount ⊢; omega)
    have hroom : ¬ maxSensors ≤ done.length := by
      rw [List.length_cons] at hcount
      omega
    rw [List.append_assoc] at hrest
    rw [List.map_cons, readSensors, if_neg hroom, hread, Option.bind_eq_bind, Option.bind_some]
    · exact hrest
    · exact s.text_ne_nil exts

namespace TemplateMsg.Ok

variable {exts : Extensions} {maxSensors : Nat} {msg : TemplateMsg}

theorem not_mem_header (h : msg.Ok exts maxSensors) {b : UInt8} (hb : b ∈ textEnds) :
    b ∉ msg.header := by
  have hmarks := ends_not_marks hb
  simp only [not_or] at hmarks
  have hid := h.id.not_mem (List.mem_cons_of_mem dot hb)
  have hstate := h.state.not_mem (List.mem_cons_of_mem dot hb)
  have hts := h.ts.not_mem hb
  simp only [header, List.mem_append, List.mem_cons, not_or]
  exact ⟨hid, hmarks.2.1, hstate, hmarks.2.1, hts⟩

theorem not_mem_segments (h : msg.Ok exts maxSensors) {b : UInt8} (hb : b ∈ textEnds) :
    ∀ p ∈ msg.sensors.map (SensorSlot.text exts), b ∉ p := by
  intro p hp
  obtain ⟨s, hs, rfl⟩ := List.mem_map.mp hp
  exact (h.sensors s hs).not_mem_text hb

/-- The text is a C string. -/
theorem nul_not_mem_text (h : msg.Ok exts maxSensors) : 0 ∉ msg.text exts := by
  have hheader := h.not_mem_header (b := 0) (by decide)
  have hsegments := not_mem_ended (by decide : (0 : UInt8) ≠ bar)
    (h.not_mem_segments (b := 0) (by decide))
  simp only [text, List.mem_append, List.mem_cons, not_or]
  exact ⟨hheader, by decide, hsegments⟩

theorem splitOn_segments (h : msg.Ok exts maxSensors) :
    (ended bar (msg.sensors.map (SensorSlot.text exts))).splitOn bar =
      msg.sensors.map (SensorSlot.text exts) ++ [[]] :=
  splitOn_closed (h.not_mem_segments (by decide))

end TemplateMsg.Ok

/-- A message is read back from its text. -/
theorem templateDecode_text {exts : Extensions} {maxSensors : Nat} {msg : TemplateMsg}
    (h : msg.Ok exts maxSensors) : templateDecode exts maxSensors (msg.text exts) = some msg := by
  have hcut : cutFirst bar (msg.text exts) =
      some (msg.header, ended bar (msg.sensors.map (SensorSlot.text exts))) :=
    cutFirst_eq_some.mpr ⟨rfl, h.not_mem_header (by decide)⟩
  have hsensors := readSensors_text h.sensors [] (by simpa using h.count)
  have hid := h.id.cutFirst (b := dot) (by decide)
  have hstate := h.state.cutFirst (b := dot) (by decide)
  simp only [templateDecode, hcut, h.splitOn_segments, List.dropLast_concat, Option.bind_eq_bind,
    Option.bind_some, TemplateMsg.header, hid, hstate, h.id.copyToken, h.state.copyToken,
    h.ts.copyToken, hsensors, List.nil_append]
  rfl

end Osfx
