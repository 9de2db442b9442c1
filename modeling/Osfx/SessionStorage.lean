import Osfx.Lib.Fields
import Osfx.SessionState

/-!
# Saved sessions

`osfx_secure_store_save` and `osfx_secure_store_load`. A file is a line for each session,
its keys in hexadecimal; a line that is not of this format is tried as one of the older
format, which has neither the window of the data frames nor the state.
`sessions_restored` says that a file restores the sessions it was saved from.
-/

namespace Osfx

open EventSystem SlotTable SecureStore Scan Numeral

/-! ## Keys in hexadecimal -/

def hexDigit (d : UInt8) : UInt8 := (ascii "0123456789abcdef").getD d.toNat 0

def bytesToHex (bytes : Bytes) : Bytes :=
  bytes.flatMap fun b : UInt8 => [hexDigit ((b >>> 4) &&& 0x0F), hexDigit (b &&& 0x0F)]

def hexNibble (c : UInt8) : Option UInt8 :=
  if 48 ≤ c ∧ c ≤ 57 then some (c - 48)
  else if 97 ≤ c ∧ c ≤ 102 then some (10 + (c - 97))
  else if 65 ≤ c ∧ c ≤ 70 then some (10 + (c - 65))
  else none

/-- Byte `i` of a key in hexadecimal. Behind the text is its NUL, which is no digit. -/
def hexByte (text : Bytes) (i : Nat) : Option UInt8 := do
  let hi ← hexNibble (text.getD (2 * i) 0)
  let lo ← hexNibble (text.getD (2 * i + 1) 0)
  return (hi <<< 4) ||| lo

def hexToBytes (text : Bytes) (n : Nat) : Option (Vector UInt8 n) :=
  if ∀ i : Fin n, (hexByte text i).isSome then
    some (Vector.ofFn fun i => (hexByte text i).getD 0)
  else none

/-! ## osfx_secure_store_save -/

/-- The line of a session. -/
def sessionText (s : SecureSession) : Bytes :=
  decimal s.aid.toNat ++ comma :: (decimal s.lastSeen.toNat ++
    comma :: (decimal s.lastDataTimestamp.toNat ++
    comma :: (decimal s.firstPlaintextTs.toNat ++
    comma :: (decimal s.pendingTimestamp.toNat ++
    comma :: (printInt s.keySet.toInt ++
    comma :: (printInt s.pendingKeySet.toInt ++
    comma :: (printInt s.dictReady.toInt ++
    comma :: (printInt s.decryptConfirmed.toInt ++
    comma :: (printInt s.state.toInt32.toInt ++
    comma :: (bytesToHex s.key.toList ++
    comma :: (bytesToHex s.pendingKey.toList ++ [newline])))))))))))

namespace SecureStore

/-- The sessions, in the order of their slots. -/
def savedSessions (store : SecureStore) : List SecureSession :=
  store.sessions.toList.filter (·.used)

/-- `osfx_secure_store_save`: what is written, and whether it returns 1, where the file
opens or not. -/
def save (store : SecureStore) (opens : Bool) : Bytes × Bool :=
  if opens then ((store.savedSessions.map sessionText).flatten, true) else ([], false)

end SecureStore

/-! ## osfx_secure_store_load -/

/-- What is read of a line. -/
structure SessionRecord where
  aid : UInt32
  last : UInt64
  lastDataTs : UInt64
  firstTs : UInt64
  pendingTs : UInt64
  keySet : Int
  pendingSet : Int
  dictReady : Int
  decrypt : Int
  state : Int
  keyHex : Bytes
  pendHex : Bytes

/-- `"%u,%llu,%llu,%llu,%llu,%d,%d,%d,%d,%d,%64[^,],%64s"`. -/
def scanSession (line : Bytes) : Option SessionRecord := do
  let (aid, rest) ← field u32 line
  let (last, rest) ← field u64 rest
  let (lastDataTs, rest) ← field u64 rest
  let (firstTs, rest) ← field u64 rest
  let (pendingTs, rest) ← field u64 rest
  let (keySet, rest) ← field i32 rest
  let (pendingSet, rest) ← field i32 rest
  let (dictReady, rest) ← field i32 rest
  let (decrypt, rest) ← field i32 rest
  let (state, rest) ← field i32 rest
  let (keyHex, rest) ← field (scanSet 64 (· != comma)) rest
  let (pendHex, _) ← word 64 rest
  return ⟨aid, last, lastDataTs, firstTs, pendingTs, keySet, pendingSet, dictReady, decrypt,
    state, keyHex, pendHex⟩

/-- `"%u,%llu,%llu,%llu,%d,%d,%d,%d,%64[^,],%64s"`, the older format. -/
def scanLegacySession (line : Bytes) : Option SessionRecord := do
  let (aid, rest) ← field u32 line
  let (last, rest) ← field u64 rest
  let (firstTs, rest) ← field u64 rest
  let (pendingTs, rest) ← field u64 rest
  let (keySet, rest) ← field i32 rest
  let (pendingSet, rest) ← field i32 rest
  let (dictReady, rest) ← field i32 rest
  let (decrypt, rest) ← field i32 rest
  let (keyHex, rest) ← field (scanSet 64 (· != comma)) rest
  let (pendHex, _) ← word 64 rest
  let state : SecState := if dictReady ≠ 0 then .dictReady else .init
  return ⟨aid, last, 0, firstTs, pendingTs, keySet, pendingSet, dictReady, decrypt,
    state.toInt32.toInt, keyHex, pendHex⟩

/-- A session with all that was read of it. A key that cannot be read is none. -/
def SecureSession.restored (s : SecureSession) (r : SessionRecord) : SecureSession :=
  { s with
    lastSeen := r.last
    lastDataTimestamp := r.lastDataTs
    firstPlaintextTs := r.firstTs
    pendingTimestamp := r.pendingTs
    key := (hexToBytes r.keyHex 32).getD (Vector.replicate _ 0)
    pendingKey := (hexToBytes r.pendHex 32).getD (Vector.replicate _ 0)
    keySet := (hexToBytes r.keyHex 32).isSome && r.keySet != 0
    pendingKeySet := (hexToBytes r.pendHex 32).isSome && r.pendingSet != 0
    dictReady := r.dictReady != 0
    decryptConfirmed := r.decrypt != 0
    state := .ofInt32 (Int32.ofInt r.state) }

namespace SecureStore

/-- The body of the loop of `osfx_secure_store_load`. A line no format fits is skipped, and
so is a session there is no room for. -/
def loadLine (store : SecureStore) (line : Bytes) : SecureStore :=
  match (scanSession (cString line)).or (scanLegacySession (cString line)) with
  | none => store
  | some r => (store.modify r.aid fun s => s.restored r).1

def clearSessions (store : SecureStore) : SecureStore :=
  { store with sessions := Vector.replicate _ .zero }

/-- `osfx_secure_store_load`: the store, and whether it returns 1. There is no file where it
does not open. The lines are read into a buffer of 512 bytes. -/
def load (store : SecureStore) : Option Bytes → SecureStore × Bool
  | none => (store, false)
  | some file => ((linesOf 511 file).foldl loadLine store.clearSessions, true)

end SecureStore

/-! ## Keys are read back -/

theorem hexNibble_hexDigit (d : Fin 16) :
    hexNibble (hexDigit (UInt8.ofNat d.val)) = some (UInt8.ofNat d.val) := by
  revert d
  decide +kernel

/-- A byte of two nibbles. -/
theorem nibbles_joined (b : UInt8) : ((b >>> 4) &&& 0x0F) <<< 4 ||| (b &&& 0x0F) = b := by
  have hall : ∀ v : Fin 256, (((UInt8.ofNat v.val) >>> 4) &&& 0x0F) <<< 4 |||
      (UInt8.ofNat v.val &&& 0x0F) = UInt8.ofNat v.val := by decide +kernel
  have hb := hall ⟨b.toNat, b.toNat_lt⟩
  rwa [UInt8.ofNat_toNat] at hb

theorem nibble_lt (b : UInt8) : (b &&& 0x0F).toNat < 16 := by
  rw [UInt8.toNat_and]
  exact Nat.lt_of_le_of_lt Nat.and_le_right (by decide)

theorem hexNibble_nibble (b : UInt8) : hexNibble (hexDigit (b &&& 0x0F)) = some (b &&& 0x0F) := by
  have h := hexNibble_hexDigit ⟨(b &&& 0x0F).toNat, nibble_lt b⟩
  rwa [UInt8.ofNat_toNat] at h

theorem hexByte_bytesToHex {bytes : Bytes} {i : Nat} (h : i < bytes.length) :
    hexByte (bytesToHex bytes) i = some bytes[i] := by
  induction bytes generalizing i with
  | nil => cases h
  | cons b bytes ih =>
    cases i with
    | zero =>
      simp only [hexByte, bytesToHex, List.flatMap_cons, List.cons_append, List.getD_cons_zero,
        List.getD_cons_succ, hexNibble_nibble, Option.bind_eq_bind, Option.bind_some,
        nibbles_joined, Nat.mul_zero, Nat.zero_add, List.getElem_cons_zero]
      rfl
    | succ i => exact ih (Nat.lt_of_succ_lt_succ h)

theorem length_bytesToHex (bytes : Bytes) : (bytesToHex bytes).length = 2 * bytes.length := by
  induction bytes with
  | nil => rfl
  | cons b bytes ih =>
    rw [bytesToHex, List.flatMap_cons, List.length_append, ← bytesToHex, ih]
    simp only [List.length_cons, List.length_nil]
    omega

theorem hexToBytes_bytesToHex {n : Nat} (v : Vector UInt8 n) :
    hexToBytes (bytesToHex v.toList) n = some v := by
  have hbyte : ∀ i : Fin n, hexByte (bytesToHex v.toList) i = some (v.get i) := by
    intro i
    have hi : i.val < v.toList.length := by simp
    rw [hexByte_bytesToHex hi]
    rfl
  have hall : ∀ i : Fin n, (hexByte (bytesToHex v.toList) i).isSome := by
    intro i
    rw [hbyte]
    rfl
  rw [hexToBytes, if_pos hall]
  congr 1
  apply Vector.ext
  intro i hi
  rw [Vector.getElem_ofFn, hbyte ⟨i, hi⟩]
  rfl

/-- No digit of a key is a comma, a white space or the NUL. -/
theorem hexDigit_plain (b : UInt8) (h : b.toNat < 16) :
    hexDigit b ≠ comma ∧ isSpace (hexDigit b) = false ∧ hexDigit b ≠ 0 := by
  have hall : ∀ d : Fin 16, hexDigit (UInt8.ofNat d.val) ≠ comma ∧
      isSpace (hexDigit (UInt8.ofNat d.val)) = false ∧ hexDigit (UInt8.ofNat d.val) ≠ 0 := by
    decide +kernel
  have hb := hall ⟨b.toNat, h⟩
  rwa [UInt8.ofNat_toNat] at hb

theorem bytesToHex_plain {bytes : Bytes} {c : UInt8} (h : c ∈ bytesToHex bytes) :
    c ≠ comma ∧ isSpace c = false ∧ c ≠ 0 := by
  obtain ⟨b, -, hc⟩ := List.mem_flatMap.mp h
  simp only [List.mem_cons, List.not_mem_nil, or_false] at hc
  rcases hc with rfl | rfl
  · exact hexDigit_plain _ (nibble_lt _)
  · exact hexDigit_plain _ (nibble_lt _)

/-! ## A line is read back -/

def SecureSession.record (s : SecureSession) : SessionRecord where
  aid := s.aid
  last := s.lastSeen
  lastDataTs := s.lastDataTimestamp
  firstTs := s.firstPlaintextTs
  pendingTs := s.pendingTimestamp
  keySet := s.keySet.toInt
  pendingSet := s.pendingKeySet.toInt
  dictReady := s.dictReady.toInt
  decrypt := s.decryptConfirmed.toInt
  state := s.state.toInt32.toInt
  keyHex := bytesToHex s.key.toList
  pendHex := bytesToHex s.pendingKey.toList

theorem keyHex_length (key : Key) : (bytesToHex key.toList).length = 64 := by
  rw [length_bytesToHex, Vector.length_toList]

theorem keyHex_ne_nil (key : Key) : bytesToHex key.toList ≠ [] := by
  intro hnil
  have hlen := keyHex_length key
  rw [hnil] at hlen
  cases hlen

theorem field_key (key : Key) (rest : Bytes) :
    field (scanSet 64 (· != comma)) (bytesToHex key.toList ++ comma :: rest) =
      some (bytesToHex key.toList, rest) := by
  apply field_eq
  apply scanSet_full (keyHex_length key) (keyHex_ne_nil key)
  intro b hb
  exact bne_iff_ne.mpr (bytesToHex_plain hb).1

theorem word_key (key : Key) (rest : Bytes) :
    word 64 (bytesToHex key.toList ++ rest) = some (bytesToHex key.toList, rest) := by
  obtain ⟨b, bs, hcons⟩ := List.exists_cons_of_ne_nil (keyHex_ne_nil key)
  have hplain : isSpace b = false := by
    have hmem : b ∈ bytesToHex key.toList := by
      rw [hcons]
      exact List.mem_cons_self
    exact (bytesToHex_plain hmem).2.1
  have hfront : (bytesToHex key.toList ++ rest).dropWhile isSpace =
      bytesToHex key.toList ++ rest := by
    rw [hcons, List.cons_append, List.dropWhile_cons_of_neg (by simp [hplain])]
  rw [word, hfront]
  apply scanSet_full (keyHex_length key) (keyHex_ne_nil key)
  intro c hc
  rw [(bytesToHex_plain hc).2.1]
  rfl

theorem scanSession_sessionText (s : SecureSession) :
    scanSession (sessionText s) = some s.record := by
  unfold scanSession sessionText
  apply bind_conv (field_u32 _ _)
  iterate 4 apply bind_conv (field_u64 _ _)
  iterate 4 apply bind_conv (field_flag _ _)
  apply bind_conv (field_int _ _)
  apply bind_conv (field_key _ _)
  apply bind_conv (word_key _ _)
  rfl

/-- All of a session is in its line. -/
theorem restored_record {s : SecureSession} (hu : s.used = true) :
    (SecureSession.fresh s.aid).restored s.record = s := by
  have hflag : ∀ b : Bool, (b.toInt != 0) = b := by decide
  simp only [SecureSession.restored, SecureSession.record, hexToBytes_bytesToHex, Option.getD_some,
    Option.isSome_some, Bool.true_and, hflag, Int32.ofInt_toInt, SecState.ofInt32_toInt32]
  rw [SecureSession.fresh, ← hu]

theorem isLine_sessionText (s : SecureSession) : IsLine (sessionText s) := by
  have hkey : ∀ key : Key, newline ∉ bytesToHex key.toList := by
    intro key hmem
    exact absurd (bytesToHex_plain hmem).2.1 (by decide)
  unfold sessionText
  iterate 5 apply isLine_field _ (newline_not_mem_decimal _)
  iterate 5 apply isLine_field _ (not_mem_printInt rfl (by decide) _)
  apply isLine_field _ (hkey s.key)
  exact isLine_last (hkey s.pendingKey)

theorem nul_not_mem_sessionText (s : SecureSession) : 0 ∉ sessionText s := by
  have hkey : ∀ key : Key, 0 ∉ bytesToHex key.toList :=
    fun key hmem => (bytesToHex_plain hmem).2.2 rfl
  have hcomma : (0 : UInt8) ≠ comma := by decide
  have hnewline : (0 : UInt8) ≠ newline := by decide
  have hdecimal : ∀ n, 0 ∉ decimal n := not_mem_decimal rfl
  have hint : ∀ v, 0 ∉ printInt v := not_mem_printInt rfl (by decide)
  simp only [sessionText, List.mem_append, List.mem_cons, List.not_mem_nil, hdecimal, hint, hkey,
    hcomma, hnewline, or_self, not_false_eq_true]

theorem flagText_length (b : Bool) : (printInt b.toInt).length = 1 := by
  cases b <;> rfl

theorem stateText_length (v : Int32) : (printInt v.toInt).length ≤ 11 := by
  have hlo := v.le_toInt
  have hhi := v.toInt_lt
  have hdigits : (decimal v.toInt.natAbs).length ≤ 10 :=
    decimal_length_le (by decide) (by omega)
  rw [printInt, List.length_append]
  split
  · simp only [List.length_singleton]
    omega
  · simp only [List.length_nil]
    omega

theorem sessionText_length (s : SecureSession) : (sessionText s).length ≤ 511 := by
  have haid := decimal_u32_length s.aid
  have hseen := decimal_u64_length s.lastSeen
  have hdata := decimal_u64_length s.lastDataTimestamp
  have hfirst := decimal_u64_length s.firstPlaintextTs
  have hpending := decimal_u64_length s.pendingTimestamp
  have hstate := stateText_length s.state.toInt32
  simp only [sessionText, List.length_append, List.length_cons, List.length_nil, flagText_length,
    keyHex_length]
  omega

/-! ## The whole file -/

namespace SecureStore

theorem aidsDistinct_load {store : SecureStore} (h : AidsDistinct store) (file : Option Bytes) :
    AidsDistinct (store.load file).1 := by
  cases file with
  | none => exact h
  | some file =>
    have hempty : AidsDistinct store.clearSessions := distinct_replicate rfl
    simp only [load]
    generalize store.clearSessions = loaded at hempty ⊢
    generalize linesOf 511 file = lines
    induction lines generalizing loaded with
    | nil => exact hempty
    | cons line lines ih =>
      apply ih
      unfold loadLine
      split
      · exact hempty
      · exact aidsDistinct_modify hempty fun _ => ⟨rfl, rfl⟩

theorem loadLine_sessionText (store : SecureStore) (s : SecureSession) :
    store.loadLine (sessionText s) = (store.modify s.aid fun s' => s'.restored s.record).1 := by
  rw [loadLine, cString_eq_self (nul_not_mem_sessionText s), scanSession_sessionText,
    Option.some_or]
  rfl

/-- The sessions of a file, whose aids differ, are put one behind the other. -/
theorem packed_load {store : SecureStore} {ss : List SecureSession}
    (h : Packed store.sessions .zero []) (hused : ∀ s ∈ ss, s.used = true)
    (hnodup : (ss.map SecureSession.aid).Nodup) (hroom : ss.length ≤ sessionMax) :
    Packed ((ss.map sessionText).foldl loadLine store).sessions .zero ss := by
  rw [List.foldl_map]
  apply packed_foldl _ h
  intro store before s rest hss hbefore
  have hin : s.used = true := hused s (by simp [← hss])
  have hfree : before.length < sessionMax := by
    rw [← hss, List.length_append, List.length_cons] at hroom
    omega
  have hold : ∀ s' ∈ before, s'.used = true := by
    intro s' hs'
    exact hused s' (by simp [← hss, hs'])
  have hnew : ∀ s' ∈ before, s'.aid ≠ s.aid := by
    rw [← hss, List.map_append, List.map_cons, List.nodup_middle, List.nodup_cons] at hnodup
    intro s' hs' haid
    apply hnodup.1
    rw [← haid]
    exact List.mem_append_left _ (List.mem_map_of_mem hs')
  have hslot : store.findOrAlloc s.aid = some (⟨before.length, hfree⟩, .fresh s.aid) := by
    have hnone : store.find s.aid = none := packed_lookup_none hbefore rfl hnew
    simp only [findOrAlloc, hnone, packed_vacant hbefore rfl hold hfree, Option.map_some]
  rw [loadLine_sessionText, SecureStore.modify, hslot]
  simp only [restored_record hin]
  exact packed_set hbefore hfree s

theorem load_saved {saved : SecureStore} (hd : AidsDistinct saved) (target : SecureStore) :
    (target.load (some (saved.save true).1)).2 = true ∧
    ∀ aid, (target.load (some (saved.save true).1)).1.session aid = saved.session aid := by
  refine ⟨rfl, fun aid => ?_⟩
  have hused : ∀ s ∈ saved.savedSessions, s.used = true := fun s hs => (List.mem_filter.mp hs).2
  have hroom : saved.savedSessions.length ≤ sessionMax := by
    have hle := List.length_filter_le (·.used) saved.sessions.toList
    rwa [Vector.length_toList] at hle
  have hlines : linesOf 511 (saved.save true).1 = saved.savedSessions.map sessionText := by
    apply linesOf_flatten
    intro line hline
    obtain ⟨s, -, rfl⟩ := List.mem_map.mp hline
    exact ⟨isLine_sessionText s, sessionText_length s⟩
  have hempty : Packed target.clearSessions.sessions SecureSession.zero [] := packed_replicate _
  have hpacked := packed_load hempty hused hd.nodup_keys hroom
  have hloaded := packed_used hpacked rfl hused hroom
  rw [load, hlines, session, session, entry_eq_find, entry_eq_find]
  exact congrArg _ hloaded

end SecureStore

/-! ## Runs -/

/-- The operations of a store, the reading of any file among them. -/
inductive StoreOp (n : Nat) where
  | session (op : SessionOp n)
  | load (file : Option Bytes)

def storeStep {n : Nat} (store : SecureStore) : StoreOp n → Option SecureStore
  | .session op => sessionStep store op
  | .load file => some (store.load file).1

theorem aidsDistinct_run {n : Nat} {expire : UInt64} {ops : List (StoreOp n)}
    {store : SecureStore} (h : run storeStep (secureStoreInit expire) ops = some store) :
    AidsDistinct store := by
  refine run_invariant storeStep ?_ (storeOk_init expire).distinct h
  intro store op store' hd hstep
  cases op with
  | session op => exact sessionStep_aidsDistinct hd hstep
  | load file =>
    cases hstep
    exact aidsDistinct_load hd file

/-- A store that was saved is loaded, into any other, with all that its sessions hold. -/
theorem sessions_restored {n : Nat} (expire : UInt64) (ops : List (StoreOp n))
    (saved target : SecureStore)
    (hrun : run storeStep (secureStoreInit expire) ops = some saved) :
    (saved.save true).2 = true ∧ (target.load (some (saved.save true).1)).2 = true ∧
    ∀ aid, (target.load (some (saved.save true).1)).1.session aid = saved.session aid :=
  ⟨rfl, load_saved (aidsDistinct_run hrun) target⟩

/-- One session with a key and one that waits for its answer. -/
def twoSessions : SecureStore :=
  (((secureStoreInit 60).confirmDict 1 8 100).1.notePlaintextSent 77 9 200).1

theorem two_sessions_restored :
    ((secureStoreInit 5).load (some (twoSessions.save true).1)).1.session 77 =
      some ((SecureSession.fresh 77).plaintextSent 77 9 200) := by
  let ops : List (StoreOp 16) :=
    [.session (.confirmDict 1 8 100), .session (.notePlaintextSent 77 9 200)]
  have hrun : run storeStep (secureStoreInit 60) ops = some twoSessions := rfl
  rw [(sessions_restored 60 ops twoSessions (secureStoreInit 5) hrun).2.2 77]
  decide +kernel

end Osfx
