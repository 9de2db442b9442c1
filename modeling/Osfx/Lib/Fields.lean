import Osfx.Lib.Scan

/-!
# Lines of fields

A format of conversions with a comma behind each but the last. A conversion that reads from
the front of its text `Consumes` it: what it leaves is a suffix. So a field takes at least one
comma away (`count_field`), and a text with too few of them is of no such format. What a field
without commas has read is known in full (`field_text_some`), and such a text is read back
where there is room for it (`field_text`).
-/

namespace Scan

open Numeral

/-- What a conversion leaves is behind what it has read. -/
def Consumes {α : Type} (conv : List UInt8 → Option (α × List UInt8)) : Prop :=
  ∀ text v rest, conv text = some (v, rest) → rest <:+ text

theorem consumes_map {α β : Type} {conv : List UInt8 → Option (α × List UInt8)}
    (h : Consumes conv) (f : α → β) :
    Consumes fun text => (conv text).map fun r => (f r.1, r.2) := by
  intro text v rest hconv
  obtain ⟨⟨w, rest'⟩, hw, he⟩ := Option.map_eq_some_iff.mp hconv
  cases he
  exact h text w rest' hw

theorem consumes_integer : Consumes integer := by
  intro text v rest h
  exact integer_suffix h

theorem consumes_u64 : Consumes u64 := consumes_map consumes_integer toUnsigned

theorem consumes_u32 : Consumes u32 :=
  consumes_map consumes_integer fun v => (toUnsigned v).toUInt32

theorem consumes_i32 : Consumes i32 :=
  consumes_map consumes_integer fun v => (toSigned v).bmod (2 ^ 32)

theorem scanSet_some {width : Nat} {p : UInt8 → Bool} {text run rest : List UInt8}
    (h : scanSet width p text = some (run, rest)) :
    text = run ++ rest ∧ run ≠ [] ∧ run.length ≤ width ∧ ∀ b ∈ run, p b = true := by
  unfold scanSet at h
  simp only at h
  split at h
  · cases h
  · rename_i hne
    cases h
    have hprefix : (text.take width).takeWhile p <+: text :=
      (List.takeWhile_prefix p).trans (List.take_prefix width text)
    refine ⟨(List.prefix_iff_eq_append.mp hprefix).symm, hne, ?_, ?_⟩
    · exact Nat.le_trans (List.takeWhile_prefix p).length_le (List.length_take_le width text)
    · exact fun b hb => List.all_eq_true.mp List.all_takeWhile b hb

theorem consumes_scanSet (width : Nat) (p : UInt8 → Bool) : Consumes (scanSet width p) := by
  intro text run rest h
  exact ⟨run, (scanSet_some h).1.symm⟩

/-! ## Fields -/

section
variable {α : Type} {conv : List UInt8 → Option (α × List UInt8)}

/-- What a field has read is followed by its comma. -/
theorem field_some {text rest : List UInt8} {v : α} (h : field conv text = some (v, rest)) :
    conv text = some (v, comma :: rest) := by
  obtain ⟨⟨w, tail⟩, hconv, h⟩ := Option.bind_eq_some_iff.mp h
  obtain ⟨rest', hlit, h⟩ := Option.bind_eq_some_iff.mp h
  cases h
  rw [hconv, literal_some hlit]
  rfl

theorem Consumes.field (h : Consumes conv) : Consumes (field conv) := by
  intro text v rest hfield
  exact (List.suffix_cons comma rest).trans (h text v _ (field_some hfield))

/-- A field takes its comma away. -/
theorem count_field (h : Consumes conv) {text rest : List UInt8} {v : α}
    (hfield : field conv text = some (v, rest)) : rest.count comma < text.count comma := by
  have hle := (h text v _ (field_some hfield)).sublist.count_le comma
  rw [List.count_cons_self] at hle
  omega

end

/-! ## Texts that were cut off -/

/-- What is left of a text behind `k` fields. -/
structure Takes (k : Nat) (text rest : List UInt8) : Prop where
  suffix : rest <:+ text
  commas : rest.count comma + k ≤ text.count comma

theorem takes_zero (text : List UInt8) : Takes 0 text text := ⟨List.suffix_rfl, Nat.le_refl _⟩

theorem Takes.field {α : Type} {conv : List UInt8 → Option (α × List UInt8)}
    (hconv : Consumes conv) {k : Nat} {text rest rest' : List UInt8} {v : α}
    (hfield : field conv rest = some (v, rest')) (h : Takes k text rest) :
    Takes (k + 1) text rest' := by
  have hcount := count_field hconv hfield
  have hcommas := h.commas
  exact ⟨(hconv.field rest v rest' hfield).trans h.suffix, by omega⟩

theorem suffix_of_comma {text front : List UInt8} (h : text <:+ front ++ [comma])
    (hcount : text.count comma = 0) : text = [] := by
  rcases List.eq_nil_or_concat' text with rfl | ⟨body, b, rfl⟩
  · rfl
  · obtain ⟨before, hbefore⟩ := h
    rw [← List.append_assoc] at hbefore
    obtain rfl : b = comma := (List.append_singleton_inj.mp hbefore).2
    simp at hcount

/-- Of a text that was cut off from one with `k` commas, the last of them at its end, nothing
is left behind `k` fields. -/
theorem Takes.cut_off {k : Nat} {whole text rest : List UInt8} (hend : whole.getLast? = some comma)
    (hk : whole.count comma ≤ k) (hcut : text <+: whole) (h : Takes k text rest) : rest = [] := by
  obtain ⟨front, rfl⟩ := List.getLast?_eq_some_iff.mp hend
  obtain ⟨behind, hbehind⟩ := hcut
  have hcommas := h.commas
  have hcount := congrArg (List.count comma) hbehind
  rw [List.count_append] at hcount
  have hnone : behind = [] := suffix_of_comma ⟨text, hbehind⟩ (by omega)
  rw [hnone, List.append_nil] at hbehind
  have hsuffix := h.suffix
  rw [hbehind] at hsuffix
  exact suffix_of_comma hsuffix (by omega)

/-! ## Fields that were written -/

theorem field_u32 (v : UInt32) (rest : List UInt8) :
    field u32 (decimal v.toNat ++ comma :: rest) = some (v, rest) :=
  field_eq (u32_decimal v (delimited_comma rest))

theorem field_u64 (v : UInt64) (rest : List UInt8) :
    field u64 (decimal v.toNat ++ comma :: rest) = some (v, rest) :=
  field_eq (u64_decimal v (delimited_comma rest))

theorem field_flag (b : Bool) (rest : List UInt8) :
    field i32 (printInt b.toInt ++ comma :: rest) = some (b.toInt, rest) := by
  apply field_eq (i32_printInt _ (delimited_comma rest))
  cases b <;> decide

theorem field_int (v : Int32) (rest : List UInt8) :
    field i32 (printInt v.toInt ++ comma :: rest) = some (v.toInt, rest) :=
  field_eq (i32_printInt ⟨v.le_toInt, v.toInt_lt⟩ (delimited_comma rest))

/-- A number of any size is read by `%d`, as some number. -/
theorem field_i32_decimal (n : Nat) (rest : List UInt8) :
    ∃ v, field i32 (decimal n ++ comma :: rest) = some (v, rest) := by
  refine ⟨(toSigned (false, n)).bmod (2 ^ 32), field_eq ?_⟩
  rw [i32, integer_decimal n (delimited_comma rest), Option.map_some]

/-- A text that starts with no white space starts with a word. -/
theorem word_isSome {width : Nat} (hwidth : 0 < width) {b : UInt8} (hb : isSpace b = false)
    (text : List UInt8) : ∃ run rest, word width (b :: text) = some (run, rest) := by
  obtain ⟨k, rfl⟩ : ∃ k, width = k + 1 := ⟨width - 1, by omega⟩
  rw [word, List.dropWhile_cons_of_neg (by simp [hb]), scanSet, List.take_succ_cons,
    List.takeWhile_cons_of_pos (by simp [hb]), if_neg (List.cons_ne_nil _ _)]
  exact ⟨_, _, rfl⟩

/-! ## Texts without commas -/

/-- A text without commas, `%31[^,]` for a width of 31, and the comma behind it. -/
theorem field_text {run : List UInt8} {width : Nat} (hlen : run.length ≤ width) (hne : run ≠ [])
    (hrun : comma ∉ run) (rest : List UInt8) :
    field (scanSet width (· != comma)) (run ++ comma :: rest) = some (run, rest) := by
  have hall : ∀ b ∈ run, (b != comma) = true := by
    intro b hb
    refine bne_iff_ne.mpr ?_
    rintro rfl
    exact hrun hb
  have htail : ((comma :: rest).take (width - run.length)).takeWhile (· != comma) = [] := by
    cases width - run.length with
    | zero => rfl
    | succ k => rfl
  have hread : ((run ++ comma :: rest).take width).takeWhile (· != comma) = run := by
    rw [List.take_append, List.take_of_length_le hlen, List.takeWhile_append_of_pos hall, htail,
      List.append_nil]
  apply field_eq
  simp only [scanSet, hread, if_neg hne, List.drop_left]

theorem field_text_some {width : Nat} {text run rest : List UInt8}
    (h : field (scanSet width (· != comma)) text = some (run, rest)) :
    text = run ++ comma :: rest ∧ run ≠ [] ∧ run.length ≤ width ∧ comma ∉ run := by
  obtain ⟨htext, hne, hlen, hrun⟩ := scanSet_some (field_some h)
  refine ⟨htext, hne, hlen, fun hmem => ?_⟩
  exact absurd rfl (bne_iff_ne.mp (hrun comma hmem))

/-! ## Lines that were read -/

theorem fgets_newline {room : Nat} {file front tail : List UInt8}
    (h : fgets room file = front ++ newline :: tail) : tail = [] := by
  induction room generalizing file front with
  | zero => simp [fgets] at h
  | succ room ih =>
    cases file with
    | nil => simp [fgets] at h
    | cons b file =>
      rw [fgets] at h
      split at h
      · cases front with
        | nil =>
          rw [List.nil_append, List.cons.injEq] at h
          exact h.2.symm
        | cons c front => simp at h
      · rename_i hb
        cases front with
        | nil =>
          rw [List.nil_append, List.cons.injEq] at h
          exact absurd h.1 hb
        | cons c front =>
          rw [List.cons_append, List.cons.injEq] at h
          exact ih h.2

/-- Nothing is behind the newline of a line that was read. -/
theorem newline_last {room : Nat} {file l front tail : List UInt8} (hl : l ∈ linesOf room file)
    (h : l = front ++ newline :: tail) : tail = [] := by
  have hread : ∀ count file, l ∈ readLines room count file → tail = [] := by
    intro count
    induction count with
    | zero =>
      intro file hmem
      cases hmem
    | succ count ih =>
      intro file hmem
      cases file with
      | nil => cases hmem
      | cons b bs =>
        rw [readLines] at hmem
        rcases List.mem_cons.mp hmem with he | hmem
        · exact fgets_newline (he.symm.trans h)
        · exact ih _ hmem
  exact hread _ file hl

end Scan
