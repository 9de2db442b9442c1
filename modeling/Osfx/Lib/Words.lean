import Osfx.Lib.Fields
import Mathlib.Data.List.DropRight

/-!
# Words and numerals

A word is a run of bytes that are no white space. `%15s` reads the first bytes of one
(`word_eq`, `word_some`), and what is left of it is read by the next conversion. A word that
is a numeral is read to its end by `%u` and by `strtol`, as the number it stands for
(`u32_firstWord`, `strtol_numeral`); of another they read what is in front of its first byte
that is no digit.

A text that words were `joined` to is read word by word: the first is read whole and leaves
the others (`word_leads`), and a number is read from the first alone (`integer_leads`).
-/

namespace Scan

open Numeral

/-- The word at the front of a text, behind white space. -/
def firstWord (text : List UInt8) : List UInt8 :=
  (text.dropWhile isSpace).takeWhile fun b => !isSpace b

/-- Digits, with no sign in front. -/
structure IsNumeral (text : List UInt8) : Prop where
  ne_nil : text ≠ []
  digits : ∀ b ∈ text, isDigit b = true

instance (text : List UInt8) : Decidable (IsNumeral text) :=
  decidable_of_iff (text.isEmpty = false ∧ text.all isDigit = true)
    ⟨fun h => ⟨List.isEmpty_eq_false_iff.mp h.1, List.all_eq_true.mp h.2⟩,
      fun h => ⟨List.isEmpty_eq_false_iff.mpr h.ne_nil, List.all_eq_true.mpr h.digits⟩⟩

theorem word_some {width : Nat} {text run rest : List UInt8}
    (h : word width text = some (run, rest)) : run = (firstWord text).take width := by
  simp only [word, scanSet] at h
  split at h
  · cases h
  · cases h
    exact List.take_takeWhile.symm

/-- The text behind the first word. -/
def afterWord (text : List UInt8) : List UInt8 :=
  (text.dropWhile isSpace).dropWhile fun b => !isSpace b

theorem word_eq {width : Nat} (hw : 0 < width) (text : List UInt8) :
    word width text = if firstWord text = [] then none
      else some ((firstWord text).take width,
        (text.dropWhile isSpace).drop ((firstWord text).take width).length) := by
  have hrun : ((text.dropWhile isSpace).take width).takeWhile (fun b => !isSpace b) =
      (firstWord text).take width := List.take_takeWhile.symm
  unfold word scanSet
  rw [hrun]
  by_cases hempty : firstWord text = []
  · rw [if_pos hempty, hempty, List.take_nil]
    rfl
  · rw [if_neg hempty, if_neg]
    intro hnil
    rcases List.take_eq_nil_iff.mp hnil with hzero | hnil
    · omega
    · exact hempty hnil

/-- A word that is not too long is read to its end. -/
theorem word_short {width : Nat} {text : List UInt8} (hne : firstWord text ≠ [])
    (hw : (firstWord text).length ≤ width) :
    word width text = some (firstWord text, afterWord text) := by
  have hpos := List.length_pos_of_ne_nil hne
  have hrest : (text.dropWhile isSpace).drop (firstWord text).length = afterWord text := by
    have hsplit := List.takeWhile_append_dropWhile
      (p := fun b => !isSpace b) (l := text.dropWhile isSpace)
    have hdrop : (firstWord text ++ afterWord text).drop (firstWord text).length =
        afterWord text := List.drop_left
    exact (congrArg (List.drop _) hsplit.symm).trans hdrop
  rw [word_eq (by omega), if_neg hne, List.take_of_length_le hw, hrest]

theorem IsNumeral.take {token : List UInt8} (h : IsNumeral token) {width : Nat} (hw : 0 < width) :
    IsNumeral (token.take width) := by
  refine ⟨fun hnil => ?_, fun b hb => h.digits b (List.mem_of_mem_take hb)⟩
  rcases List.take_eq_nil_iff.mp hnil with hzero | hnil
  · omega
  · exact h.ne_nil hnil

/-! ## The number a numeral stands for -/

theorem digitsVal_append (front back : List UInt8) :
    digitsVal (front ++ back) = digitsVal front * 10 ^ back.length + digitsVal back := by
  induction back using List.reverseRecOn with
  | nil => simp [digitsVal]
  | append_singleton back d ih =>
    rw [← List.append_assoc, digitsVal_append_one, digitsVal_append_one, ih, List.length_append,
      List.length_singleton, Nat.pow_succ, Nat.mul_add]
    ring

theorem digitsVal_lt {digits : List UInt8} (h : ∀ b ∈ digits, isDigit b = true) :
    digitsVal digits < 10 ^ digits.length := by
  induction digits using List.reverseRecOn with
  | nil => decide
  | append_singleton digits d ih =>
    have hrest := ih fun b hb => h b (List.mem_append_left _ hb)
    have hd := h d (List.mem_append_right _ List.mem_cons_self)
    simp only [isDigit, Bool.and_eq_true, decide_eq_true_eq] at hd
    rw [digitsVal_append_one, List.length_append, List.length_singleton, Nat.pow_succ]
    omega

/-- More digits stand for a larger number, unless all in front are zeros. -/
theorem digitsVal_take_lt {digits : List UInt8} {width : Nat}
    (hpos : 0 < digitsVal (digits.take width)) (hlong : width < digits.length) :
    digitsVal (digits.take width) < digitsVal digits := by
  have hsplit := digitsVal_append (digits.take width) (digits.drop width)
  rw [List.take_append_drop, List.length_drop] at hsplit
  have hpow : 10 ≤ 10 ^ (digits.length - width) := by
    calc 10 = 10 ^ 1 := rfl
      _ ≤ 10 ^ (digits.length - width) := Nat.pow_le_pow_right (by decide) (by omega)
  have hmul := Nat.mul_le_mul_left (digitsVal (digits.take width)) hpow
  omega

/-! ## Numerals are read to their end -/

theorem integer_numeral {digits rest : List UInt8} (h : IsNumeral digits) (hrest : Delimited rest) :
    integer (digits ++ rest) = some ((false, digitsVal digits), rest) := by
  obtain ⟨hne, hdigits⟩ := h
  obtain ⟨htake, hdrop⟩ := span_digits hdigits hrest
  obtain ⟨b, tail, rfl⟩ := List.exists_cons_of_ne_nil hne
  have hsign := sign_digit (hdigits b List.mem_cons_self) (tail ++ rest)
  rw [← List.cons_append] at hsign
  simp only [integer, hsign, htake, hdrop, if_neg hne]

theorem integer_dropWhile (text : List UInt8) :
    integer (text.dropWhile isSpace) = integer text := by
  simp only [integer, List.dropWhile_idempotent]

/-- Behind a word there is white space or nothing. -/
theorem delimited_word (text : List UInt8) :
    Delimited ((text.dropWhile isSpace).dropWhile fun b => !isSpace b) := by
  intro b hb
  have hstop := List.head?_dropWhile_not (fun b => !isSpace b) (text.dropWhile isSpace)
  rw [hb] at hstop
  have hspace : isSpace b = true := by simpa using hstop
  cases hdigit : isDigit b with
  | false => rfl
  | true =>
    rw [isSpace_digit hdigit] at hspace
    cases hspace

theorem integer_firstWord {text : List UInt8} (h : IsNumeral (firstWord text)) :
    ∃ rest, integer text = some ((false, digitsVal (firstWord text)), rest) := by
  have hread := integer_numeral h (delimited_word text)
  rw [firstWord, List.takeWhile_append_dropWhile, integer_dropWhile] at hread
  exact ⟨_, hread⟩

theorem u32_firstWord {text rest : List UInt8} {v : UInt32} (h : IsNumeral (firstWord text))
    (hfit : digitsVal (firstWord text) < 2 ^ 32) (hread : u32 text = some (v, rest)) :
    v.toNat = digitsVal (firstWord text) := by
  obtain ⟨rest', hinteger⟩ := integer_firstWord h
  simp only [u32, hinteger, Option.map_some, Option.some.injEq, Prod.mk.injEq] at hread
  have hlt : ¬ 2 ^ 64 ≤ digitsVal (firstWord text) := by omega
  rw [← hread.1]
  simp only [toUnsigned, if_neg hlt, Bool.false_eq_true, if_false, UInt64.toNat_toUInt32,
    UInt64.toNat_ofNat']
  omega

theorem strtol_numeral {digits : List UInt8} (h : IsNumeral digits) (hlen : digits.length ≤ 18) :
    strtol digits = digitsVal digits := by
  have hend : Delimited [] := by
    intro b hb
    cases hb
  have hread := integer_numeral h hend
  rw [List.append_nil] at hread
  have hlt : digitsVal digits < 10 ^ 18 :=
    Nat.lt_of_lt_of_le (digitsVal_lt h.digits) (Nat.pow_le_pow_right (by decide) hlen)
  simp only [strtol, hread, toSigned, Bool.false_eq_true, if_false]
  omega

/-! ## Texts of words -/

/-- Some bytes, and none of them white space. -/
structure IsWord (w : List UInt8) : Prop where
  ne_nil : w ≠ []
  no_space : ∀ b ∈ w, isSpace b = false

instance (w : List UInt8) : Decidable (IsWord w) :=
  decidable_of_iff (w.isEmpty = false ∧ w.any isSpace = false)
    ⟨fun h => ⟨List.isEmpty_eq_false_iff.mp h.1, by simpa using h.2⟩,
      fun h => ⟨List.isEmpty_eq_false_iff.mpr h.ne_nil, by simpa using h.no_space⟩⟩

/-- Words that are not the first of a text, each behind a blank. -/
def behind (ws : List (List UInt8)) : List UInt8 := ws.flatMap fun w => 32 :: w

/-- A text of words with one blank between them. -/
def joined : List (List UInt8) → List UInt8
  | [] => []
  | w :: ws => w ++ behind ws

/-- What is behind the white space at the front of a text is a text of words. -/
def Leads (text : List UInt8) (ws : List (List UInt8)) : Prop :=
  text.dropWhile isSpace = joined ws

theorem IsWord.dropWhile {w : List UInt8} (h : IsWord w) (rest : List UInt8) :
    (w ++ rest).dropWhile isSpace = w ++ rest := by
  obtain ⟨b, tail, rfl⟩ := List.exists_cons_of_ne_nil h.ne_nil
  rw [List.cons_append, List.dropWhile_cons_of_neg]
  rw [h.no_space b List.mem_cons_self]
  decide

theorem leads_joined {ws : List (List UInt8)} (h : ∀ w ∈ ws, IsWord w) :
    Leads (joined ws) ws := by
  cases ws with
  | nil => rfl
  | cons w ws => exact (h w List.mem_cons_self).dropWhile _

theorem leads_behind {ws : List (List UInt8)} (h : ∀ w ∈ ws, IsWord w) :
    Leads (behind ws) ws := by
  cases ws with
  | nil => rfl
  | cons w ws =>
    unfold Leads behind
    rw [List.flatMap_cons, List.cons_append, List.dropWhile_cons_of_pos (by decide)]
    exact (h w List.mem_cons_self).dropWhile _

theorem mem_joined {ws : List (List UInt8)} {b : UInt8} (h : b ∈ joined ws) :
    b = 32 ∨ ∃ w ∈ ws, b ∈ w := by
  cases ws with
  | nil => cases h
  | cons w ws =>
    rcases List.mem_append.mp h with hw | hbehind
    · exact Or.inr ⟨w, List.mem_cons_self, hw⟩
    · obtain ⟨v, hv, hb⟩ := List.mem_flatMap.mp hbehind
      rcases List.mem_cons.mp hb with hblank | hb
      · exact Or.inl hblank
      · exact Or.inr ⟨v, List.mem_cons_of_mem w hv, hb⟩

theorem word_leads_nil {text : List UInt8} (h : Leads text []) (width : Nat) :
    word width text = none := by
  simp only [word, h.trans (show joined [] = [] from rfl), scanSet, List.take_nil,
    List.takeWhile_nil, if_true]

section
variable {text w : List UInt8} {ws : List (List UInt8)} (h : Leads text (w :: ws)) (hw : IsWord w)
include h hw

/-- The first word is read whole, and leaves the others. -/
theorem word_leads {width : Nat} (hwidth : w.length ≤ width) :
    word width text = some (w, behind ws) := by
  have hword : ∀ b ∈ w, (!isSpace b) = true := by
    intro b hb
    rw [hw.no_space b hb]
    rfl
  have hstop : (behind ws).takeWhile (fun b => !isSpace b) = [] ∧
      (behind ws).dropWhile (fun b => !isSpace b) = behind ws := by
    cases ws with
    | nil => exact ⟨rfl, rfl⟩
    | cons v ws => exact ⟨rfl, rfl⟩
  have hfirst : firstWord text = w := by
    rw [firstWord, h, joined, List.takeWhile_append_of_pos hword, hstop.1, List.append_nil]
  have hafter : afterWord text = behind ws := by
    rw [afterWord, h, joined, List.dropWhile_append_of_pos hword, hstop.2]
  have hread : word width text = some (firstWord text, afterWord text) :=
    word_short (hfirst ▸ hw.ne_nil) (hfirst ▸ hwidth)
  rw [hread, hfirst, hafter]

/-- A number is read from the first word alone. -/
theorem integer_leads : (integer text).map Prod.fst = (integer w).map Prod.fst := by
  have hdelimited : ∀ b, (behind ws).head? = some b → isDigit b = false := by
    cases ws with
    | nil => exact fun b hb => by cases hb
    | cons v ws =>
      intro b hb
      cases hb
      rfl
  have hstop : (behind ws).takeWhile isDigit = [] := by
    cases hbehind : behind ws with
    | nil => rfl
    | cons b rest =>
      rw [List.takeWhile_cons_of_neg]
      rw [hdelimited b (by rw [hbehind]; rfl)]
      decide
  have hsign : sign (w ++ behind ws) = ((sign w).1, (sign w).2 ++ behind ws) := by
    obtain ⟨b, tail, rfl⟩ := List.exists_cons_of_ne_nil hw.ne_nil
    simp only [List.cons_append, sign]
    split
    · rfl
    split
    · rfl
    · rfl
  have hdigits : ((sign w).2 ++ behind ws).takeWhile isDigit = (sign w).2.takeWhile isDigit := by
    rw [List.takeWhile_append, hstop, List.append_nil]
    split
    · rename_i hall
      exact (List.takeWhile_prefix isDigit).eq_of_length hall |>.symm
    · rfl
  have hself : w.dropWhile isSpace = w := by
    have hdrop := hw.dropWhile []
    rwa [List.append_nil] at hdrop
  have hfront : text.dropWhile isSpace = w ++ behind ws := h
  simp only [integer, hfront, hself, hsign, hdigits]
  by_cases hnone : (sign w).2.takeWhile isDigit = []
  · simp only [if_pos hnone]
  · simp only [if_neg hnone, Option.map_some]

end

end Scan
