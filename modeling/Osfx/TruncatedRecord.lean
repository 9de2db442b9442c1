import Osfx.SessionStorage

/-!
# Session records that were cut off

A record that is cut off in front of its last field is not read as one of twelve fields. From
the first byte of its tenth field on it is read as one of the older format, though, the fields
shifted and the replay timestamp 0: `truncated_skipped_iff`.
-/

namespace Osfx

open Scan Numeral SlotTable

/-- The first nine fields of a record, with their commas, and what is behind them. -/
def nineFields (s : SecureSession) (rest : Bytes) : Bytes :=
  decimal s.aid.toNat ++ comma :: (decimal s.lastSeen.toNat ++
    comma :: (decimal s.lastDataTimestamp.toNat ++
    comma :: (decimal s.firstPlaintextTs.toNat ++
    comma :: (decimal s.pendingTimestamp.toNat ++
    comma :: (printInt s.keySet.toInt ++
    comma :: (printInt s.pendingKeySet.toInt ++
    comma :: (printInt s.dictReady.toInt ++
    comma :: (printInt s.decryptConfirmed.toInt ++ comma :: rest))))))))

/-- The tenth field of a record and the eleventh, the key. -/
def stateAndKey (s : SecureSession) : Bytes :=
  printInt s.state.toInt32.toInt ++ comma :: (bytesToHex s.key.toList ++ [comma])

theorem nineFields_append (s : SecureSession) (rest : Bytes) :
    nineFields s rest = nineFields s [] ++ rest := by
  simp only [nineFields, List.append_assoc, List.cons_append, List.nil_append]

/-- The last field is behind the first nine, the state and the key. -/
theorem sessionText_eq (s : SecureSession) : sessionText s =
    nineFields s (stateAndKey s) ++ (bytesToHex s.pendingKey.toList ++ [newline]) := by
  simp only [sessionText, nineFields, stateAndKey, List.append_assoc, List.cons_append,
    List.nil_append]

/-! ## The formats take their commas -/

theorem takes_of_scanSession {text : Bytes} {r : SessionRecord} (h : scanSession text = some r) :
    ∃ rest run, Takes 11 text rest ∧ word 64 rest = some run := by
  unfold scanSession at h
  obtain ⟨⟨_, _⟩, h₁, h⟩ := Option.bind_eq_some_iff.mp h
  obtain ⟨⟨_, _⟩, h₂, h⟩ := Option.bind_eq_some_iff.mp h
  obtain ⟨⟨_, _⟩, h₃, h⟩ := Option.bind_eq_some_iff.mp h
  obtain ⟨⟨_, _⟩, h₄, h⟩ := Option.bind_eq_some_iff.mp h
  obtain ⟨⟨_, _⟩, h₅, h⟩ := Option.bind_eq_some_iff.mp h
  obtain ⟨⟨_, _⟩, h₆, h⟩ := Option.bind_eq_some_iff.mp h
  obtain ⟨⟨_, _⟩, h₇, h⟩ := Option.bind_eq_some_iff.mp h
  obtain ⟨⟨_, _⟩, h₈, h⟩ := Option.bind_eq_some_iff.mp h
  obtain ⟨⟨_, _⟩, h₉, h⟩ := Option.bind_eq_some_iff.mp h
  obtain ⟨⟨_, _⟩, h₁₀, h⟩ := Option.bind_eq_some_iff.mp h
  obtain ⟨⟨_, rest⟩, h₁₁, h⟩ := Option.bind_eq_some_iff.mp h
  obtain ⟨run, hword, -⟩ := Option.bind_eq_some_iff.mp h
  have hfive := (((((takes_zero text).field consumes_u32 h₁).field consumes_u64 h₂).field
    consumes_u64 h₃).field consumes_u64 h₄).field consumes_u64 h₅
  have hten := ((((hfive.field consumes_i32 h₆).field consumes_i32 h₇).field consumes_i32
    h₈).field consumes_i32 h₉).field consumes_i32 h₁₀
  exact ⟨rest, run, hten.field (consumes_scanSet 64 _) h₁₁, hword⟩

theorem takes_of_scanLegacySession {text : Bytes} {r : SessionRecord}
    (h : scanLegacySession text = some r) :
    ∃ rest run, Takes 9 text rest ∧ word 64 rest = some run := by
  unfold scanLegacySession at h
  obtain ⟨⟨_, _⟩, h₁, h⟩ := Option.bind_eq_some_iff.mp h
  obtain ⟨⟨_, _⟩, h₂, h⟩ := Option.bind_eq_some_iff.mp h
  obtain ⟨⟨_, _⟩, h₃, h⟩ := Option.bind_eq_some_iff.mp h
  obtain ⟨⟨_, _⟩, h₄, h⟩ := Option.bind_eq_some_iff.mp h
  obtain ⟨⟨_, _⟩, h₅, h⟩ := Option.bind_eq_some_iff.mp h
  obtain ⟨⟨_, _⟩, h₆, h⟩ := Option.bind_eq_some_iff.mp h
  obtain ⟨⟨_, _⟩, h₇, h⟩ := Option.bind_eq_some_iff.mp h
  obtain ⟨⟨_, _⟩, h₈, h⟩ := Option.bind_eq_some_iff.mp h
  obtain ⟨⟨_, rest⟩, h₉, h⟩ := Option.bind_eq_some_iff.mp h
  obtain ⟨run, hword, -⟩ := Option.bind_eq_some_iff.mp h
  have hfour := ((((takes_zero text).field consumes_u32 h₁).field consumes_u64 h₂).field
    consumes_u64 h₃).field consumes_u64 h₄
  have height := (((hfour.field consumes_i32 h₅).field consumes_i32 h₆).field consumes_i32
    h₇).field consumes_i32 h₈
  exact ⟨rest, run, height.field (consumes_scanSet 64 _) h₉, hword⟩

/-! ## Which format a cut record has -/

section
variable {s : SecureSession} {text : Bytes}

theorem count_nineFields (s : SecureSession) (rest : Bytes) :
    (nineFields s rest).count comma = rest.count comma + 9 := by
  have hdecimal : ∀ n, (decimal n).count comma = 0 := fun n =>
    List.count_eq_zero.mpr (not_mem_decimal rfl n)
  have hint : ∀ v, (printInt v).count comma = 0 := fun v =>
    List.count_eq_zero.mpr (not_mem_printInt rfl (by decide) v)
  simp only [nineFields, List.count_append, List.count_cons_self, hdecimal, hint, Nat.zero_add]

theorem nineFields_end (s : SecureSession) : (nineFields s []).getLast? = some comma := by
  simp [nineFields, List.getLast?_append, List.getLast?_cons]

theorem stateAndKey_end (s : SecureSession) :
    (nineFields s (stateAndKey s)).getLast? = some comma := by
  simp [nineFields, stateAndKey, List.getLast?_append, List.getLast?_cons]

theorem count_stateAndKey (s : SecureSession) : (stateAndKey s).count comma = 2 := by
  have hstate : (printInt s.state.toInt32.toInt).count comma = 0 :=
    List.count_eq_zero.mpr (not_mem_printInt rfl (by decide) _)
  have hkey : (bytesToHex s.key.toList).count comma = 0 :=
    List.count_eq_zero.mpr fun hmem => (bytesToHex_plain hmem).1 rfl
  simp only [stateAndKey, List.count_append, List.count_cons_self, hstate, hkey, Nat.zero_add,
    List.count_nil]

/-- It is never read as one of twelve fields. -/
theorem scanSession_cut (hcut : text <+: nineFields s (stateAndKey s)) :
    scanSession text = none := by
  cases hscan : scanSession text with
  | none => rfl
  | some r =>
    obtain ⟨rest, run, htakes, hword⟩ := takes_of_scanSession hscan
    have hcount : (nineFields s (stateAndKey s)).count comma ≤ 11 := by
      rw [count_nineFields, count_stateAndKey]
    rw [htakes.cut_off (stateAndKey_end s) hcount hcut] at hword
    cases hword

/-- In front of the tenth field it is not read as one of the older format. -/
theorem scanLegacySession_cut (hcut : text <+: nineFields s []) :
    scanLegacySession text = none := by
  cases hscan : scanLegacySession text with
  | none => rfl
  | some r =>
    obtain ⟨rest, run, htakes, hword⟩ := takes_of_scanLegacySession hscan
    have hcount : (nineFields s []).count comma ≤ 9 := by
      rw [count_nineFields, List.count_nil]
    rw [htakes.cut_off (nineFields_end s) hcount hcut] at hword
    cases hword

/-- What is read then: every field but the first two is another's. -/
def shiftedRecord (s : SecureSession) (keySet : Int) (pendHex : Bytes) : SessionRecord where
  aid := s.aid
  last := s.lastSeen
  lastDataTs := 0
  firstTs := s.lastDataTimestamp
  pendingTs := s.firstPlaintextTs
  keySet := keySet
  pendingSet := s.keySet.toInt
  dictReady := s.pendingKeySet.toInt
  decrypt := s.dictReady.toInt
  state := (if s.pendingKeySet.toInt ≠ 0 then SecState.dictReady else .init).toInt32.toInt
  keyHex := printInt s.decryptConfirmed.toInt
  pendHex := pendHex

/-- From there on it is. -/
theorem scanLegacySession_nineFields (s : SecureSession) {b : UInt8} (hb : isSpace b = false)
    (rest : Bytes) : ∃ keySet pendHex,
      scanLegacySession (nineFields s (b :: rest)) = some (shiftedRecord s keySet pendHex) := by
  obtain ⟨keySet, hkeySet⟩ := field_i32_decimal s.pendingTimestamp.toNat
    (printInt s.keySet.toInt ++ comma :: (printInt s.pendingKeySet.toInt ++
      comma :: (printInt s.dictReady.toInt ++ comma :: (printInt s.decryptConfirmed.toInt ++
      comma :: b :: rest))))
  obtain ⟨pendHex, left, hpend⟩ := word_isSome (show 0 < 64 by decide) hb rest
  have hflag : field (scanSet 64 (· != comma)) (printInt s.decryptConfirmed.toInt ++
      comma :: b :: rest) = some (printInt s.decryptConfirmed.toInt, b :: rest) := by
    apply field_text
    · rw [flagText_length]
      decide
    · intro hnil
      have hlen := flagText_length s.decryptConfirmed
      rw [hnil] at hlen
      cases hlen
    · exact not_mem_printInt rfl (by decide) _
  refine ⟨keySet, pendHex, ?_⟩
  unfold scanLegacySession nineFields
  apply bind_conv (field_u32 _ _)
  iterate 3 apply bind_conv (field_u64 _ _)
  apply bind_conv hkeySet
  iterate 3 apply bind_conv (field_flag _ _)
  apply bind_conv hflag
  apply bind_conv hpend
  rfl

theorem printInt_cons (v : Int) : ∃ b rest, printInt v = b :: rest ∧ isSpace b = false := by
  by_cases hneg : v < 0
  · exact ⟨45, decimal v.natAbs, by rw [printInt, if_pos hneg]; rfl, rfl⟩
  · obtain ⟨b, rest, hcons⟩ := List.exists_cons_of_ne_nil (decimal_ne_nil v.natAbs)
    have hdigit : isDigit b = true := by
      apply isDigit_of_mem_decimal (n := v.natAbs)
      rw [hcons]
      exact List.mem_cons_self
    exact ⟨b, rest, by rw [printInt, if_neg hneg, hcons]; rfl, isSpace_digit hdigit⟩

/-- A cut record that is longer than its first nine fields has some of the tenth. -/
theorem cut_longer (hcut : text <+: nineFields s (stateAndKey s))
    (hlong : (nineFields s []).length < text.length) :
    ∃ b rest, isSpace b = false ∧ text = nineFields s (b :: rest) := by
  rw [nineFields_append] at hcut
  have hnine : nineFields s [] <+: text :=
    List.prefix_of_prefix_length_le (List.prefix_append _ _) hcut (Nat.le_of_lt hlong)
  obtain ⟨tail, rfl⟩ := hnine
  cases tail with
  | nil =>
    rw [List.append_nil] at hlong
    omega
  | cons b rest =>
    have htail := (List.prefix_append_right_inj _).mp hcut
    obtain ⟨c, state, hstate, hspace⟩ := printInt_cons s.state.toInt32.toInt
    rw [stateAndKey, hstate, List.cons_append, List.cons_prefix_cons] at htail
    rw [← htail.1] at hspace
    exact ⟨b, rest, hspace, (nineFields_append s _).symm⟩

end

/-! ## Files that end in a cut record -/

namespace SecureStore

theorem loadLine_unread {text : Bytes} (hnul : 0 ∉ text) (h : scanSession text = none)
    (h' : scanLegacySession text = none) (store : SecureStore) : store.loadLine text = store := by
  rw [loadLine, cString_eq_self hnul, h, h']
  rfl

theorem load_unfinished (target : SecureStore) (ss : List SecureSession) {text : Bytes}
    (hne : text ≠ []) (hline : newline ∉ text) (hroom : text.length ≤ 511) :
    (target.load (some ((ss.map sessionText).flatten ++ text))).1 =
      ((target.load (some (ss.map sessionText).flatten)).1).loadLine text := by
  have hlines : ∀ l ∈ ss.map sessionText, IsLine l ∧ l.length ≤ 511 := by
    intro l hl
    obtain ⟨s, -, rfl⟩ := List.mem_map.mp hl
    exact ⟨isLine_sessionText s, sessionText_length s⟩
  rw [load, load, linesOf_unfinished hlines hline hroom, linesOf_flatten hlines, if_neg hne,
    List.foldl_append]
  rfl

theorem load_empty (store : SecureStore) : store.load (some []) = (store.clearSessions, true) := rfl

/-- A store without sessions takes any. -/
theorem session_loadLine_empty (target : SecureStore) {text : Bytes} {r : SessionRecord}
    (hnul : 0 ∉ text) (h : scanSession text = none) (h' : scanLegacySession text = some r) :
    (target.clearSessions.loadLine text).session r.aid =
      some ((SecureSession.fresh r.aid).restored r) := by
  have hempty : Packed target.clearSessions.sessions SecureSession.zero [] := packed_replicate _
  have hnone : target.clearSessions.find r.aid = none :=
    packed_lookup_none hempty rfl fun q hq => by cases hq
  have hfree : vacant SecureSession.used target.clearSessions.sessions = some ⟨0, by decide⟩ :=
    packed_vacant hempty rfl (fun q hq => by cases hq) (by decide)
  have hslot : target.clearSessions.findOrAlloc r.aid = some (⟨0, by decide⟩, .fresh r.aid) := by
    simp only [findOrAlloc, hnone, hfree, Option.map_some]
  simp only [loadLine, cString_eq_self hnul, h, h', Option.none_or, SecureStore.modify, hslot]
  have hused : ((SecureSession.fresh r.aid).restored r).used = true := rfl
  have hput := session_put hslot hused rfl r.aid
  rwa [if_pos rfl] at hput

end SecureStore

/-- The file `text` behind the records of `ss` leaves in every store what these leave. -/
def Skipped (text : Bytes) : Prop :=
  ∀ (target : SecureStore) (ss : List SecureSession),
    (target.load (some ((ss.map sessionText).flatten ++ text))).1 =
      (target.load (some (ss.map sessionText).flatten)).1

section
variable {s : SecureSession} {text : Bytes}

/-- A prefix of a record that ends in front of its last field. -/
structure CutRecord (s : SecureSession) (text : Bytes) : Prop where
  front : text <+: sessionText s
  short : text.length ≤ (nineFields s (stateAndKey s)).length

theorem CutRecord.inFields (h : CutRecord s text) : text <+: nineFields s (stateAndKey s) := by
  have hwhole := h.front
  rw [sessionText_eq] at hwhole
  exact List.prefix_of_prefix_length_le hwhole (List.prefix_append _ _) h.short

theorem CutRecord.nul_not_mem (h : CutRecord s text) : 0 ∉ text := fun hmem =>
  nul_not_mem_sessionText s (h.front.mem hmem)

theorem CutRecord.newline_not_mem (h : CutRecord s text) : newline ∉ text := by
  obtain ⟨body, hbody, hline⟩ := isLine_sessionText s
  have hlen := congrArg List.length (hline.symm.trans (sessionText_eq s))
  simp only [List.length_append, List.length_singleton] at hlen
  have hshort := h.short
  have hfront := h.front
  rw [hline] at hfront
  have hin : text <+: body :=
    List.prefix_of_prefix_length_le hfront (List.prefix_append _ _) (by omega)
  exact fun hmem => hbody (hin.mem hmem)

theorem CutRecord.length_le (h : CutRecord s text) : text.length ≤ 511 :=
  Nat.le_trans h.front.length_le (sessionText_length s)

theorem skipped_of_short (h : CutRecord s text) (hshort : text.length ≤ (nineFields s []).length) :
    Skipped text := by
  intro target ss
  by_cases hne : text = []
  · rw [hne, List.append_nil]
  · have hcut : text <+: nineFields s [] := by
      have hwhole := h.inFields
      rw [nineFields_append] at hwhole
      exact List.prefix_of_prefix_length_le hwhole (List.prefix_append _ _) hshort
    rw [SecureStore.load_unfinished target ss hne h.newline_not_mem h.length_le]
    exact SecureStore.loadLine_unread h.nul_not_mem (scanSession_cut h.inFields)
      (scanLegacySession_cut hcut) _

/-- A longer one is loaded as a session of the same aid, with what its other fields are not. -/
theorem loaded_of_long (h : CutRecord s text) (hlong : (nineFields s []).length < text.length)
    (target : SecureStore) : ∃ keySet pendHex,
      ((target.load (some text)).1).session s.aid =
        some ((SecureSession.fresh s.aid).restored (shiftedRecord s keySet pendHex)) := by
  obtain ⟨b, rest, hspace, htext⟩ := cut_longer h.inFields hlong
  obtain ⟨keySet, pendHex, hread⟩ := scanLegacySession_nineFields s hspace rest
  rw [← htext] at hread
  have hne : text ≠ [] := by
    rintro rfl
    cases hlong
  have hload := SecureStore.load_unfinished target [] hne h.newline_not_mem h.length_le
  refine ⟨keySet, pendHex, ?_⟩
  rw [List.map_nil, List.flatten_nil, List.nil_append, SecureStore.load_empty] at hload
  have hloaded := SecureStore.session_loadLine_empty target h.nul_not_mem
    (scanSession_cut h.inFields) hread
  rw [hload]
  exact hloaded

/-- A record that was cut off in front of its last field is never read as one of twelve fields;
and it is skipped exactly if it ends in front of its tenth field. -/
theorem truncated_skipped_iff (h : CutRecord s text) :
    scanSession text = none ∧ (Skipped text ↔ text.length ≤ (nineFields s []).length) := by
  refine ⟨scanSession_cut h.inFields, fun hskip => ?_, skipped_of_short h⟩
  by_contra hlong
  obtain ⟨keySet, pendHex, hloaded⟩ := loaded_of_long h (Nat.not_le.mp hlong) (secureStoreInit 0)
  have hnone := hskip (secureStoreInit 0) []
  rw [List.map_nil, List.flatten_nil, List.nil_append] at hnone
  rw [hnone] at hloaded
  cases hloaded

end

/-- A session with the key of the frame of timestamp 100, confirmed at 5. -/
def pairedSession : SecureSession := (SecureSession.fresh 1).dictConfirmed 1 100 5

/-- Its record is skipped where it is cut off in its eighth field. -/
theorem pairedSession_skipped :
    pairedSession.keySet = true ∧ Skipped ((sessionText pairedSession).take 18) := by
  have hcut : CutRecord pairedSession ((sessionText pairedSession).take 18) :=
    ⟨List.take_prefix 18 _, by decide +kernel⟩
  exact ⟨rfl, (truncated_skipped_iff hcut).2.mpr (by decide +kernel)⟩

/-- Cut off behind its tenth field it is loaded as a session. -/
theorem tenFields_misread : ¬ ∀ s text, CutRecord s text → Skipped text := by
  intro hall
  have hcut : CutRecord (.fresh 1) (ascii "1,0,0,0,0,0,0,0,0,0") :=
    ⟨by decide +kernel, by decide +kernel⟩
  obtain ⟨keySet, pendHex, hloaded⟩ := loaded_of_long hcut (by decide +kernel) (secureStoreInit 0)
  have hnone := hall _ _ hcut (secureStoreInit 0) []
  rw [List.map_nil, List.flatten_nil, List.nil_append] at hnone
  rw [hnone] at hloaded
  cases hloaded

end Osfx
