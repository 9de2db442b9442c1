import Osfx.Lib.Numeral
import Mathlib.Data.List.TakeWhile
import Mathlib.Data.Rat.Defs

/-!
# Formatted text and how it is read

The conversions of `printf` and `scanf` that stand in line-oriented files, and the
line reader under them. A scan conversion takes a text and gives the value read and
the text left, so that a format is a chain of them in `Option`; it fails where the
conversion finds nothing it can read.

* `u32_decimal`, `u64_decimal`, `i32_printInt`: a number in range that was written in
  decimal is read back;
* `linesOf_flatten`: lines that are short enough and end in their only newline are
  read back one by one.
-/

namespace Scan

open Numeral

def newline : UInt8 := 10

/-- What stands between the fields of a line. -/
def comma : UInt8 := 44

def isDigit (b : UInt8) : Bool := 48 ≤ b.toNat && b.toNat ≤ 57

def isSpace (b : UInt8) : Bool := b.toNat == 32 || (9 ≤ b.toNat && b.toNat ≤ 13)

/-- The number a string of digits stands for. -/
def digitsVal (digits : List UInt8) : Nat :=
  digits.foldl (fun v d => 10 * v + (d.toNat - 48)) 0

/-- Text of a format that is no conversion. -/
def literal (lit text : List UInt8) : Option (List UInt8) :=
  if lit.isPrefixOf text then some (text.drop lit.length) else none

/-- An optional sign: whether it is a minus, and the text after it. -/
def sign : List UInt8 → Bool × List UInt8
  | [] => (false, [])
  | b :: rest =>
    if b.toNat = 45 then (true, rest)
    else if b.toNat = 43 then (false, rest)
    else (false, b :: rest)

/-- Sign and digits of an integer, behind white space. -/
def integer (text : List UInt8) : Option ((Bool × Nat) × List UInt8) :=
  let signed := sign (text.dropWhile isSpace)
  let digits := signed.2.takeWhile isDigit
  if digits = [] then none
  else some ((signed.1, digitsVal digits), signed.2.dropWhile isDigit)

/-- `strtoull` on what was read: the largest value where it is out of range. -/
def toUnsigned : Bool × Nat → UInt64
  | (neg, v) =>
    if 2 ^ 64 ≤ v then UInt64.ofNat (2 ^ 64 - 1)
    else if neg then -UInt64.ofNat v else UInt64.ofNat v

/-- `strtoll` on what was read: the nearest value where it is out of range. -/
def toSigned : Bool × Nat → Int
  | (neg, v) => if neg then max (-(v : Int)) (-2 ^ 63) else min (v : Int) (2 ^ 63 - 1)

/-- `strtol`: 0 where there is nothing to read. -/
def strtol (text : List UInt8) : Int :=
  match integer text with
  | none => 0
  | some (v, _) => toSigned v

/-- `%llu`. -/
def u64 (text : List UInt8) : Option (UInt64 × List UInt8) :=
  (integer text).map fun r => (toUnsigned r.1, r.2)

/-- `%u`: the low half of an `unsigned long` of 64 bits. -/
def u32 (text : List UInt8) : Option (UInt32 × List UInt8) :=
  (integer text).map fun r => ((toUnsigned r.1).toUInt32, r.2)

/-- `%d`: the low half of a `long` of 64 bits. -/
def i32 (text : List UInt8) : Option (Int × List UInt8) :=
  (integer text).map fun r => ((toSigned r.1).bmod (2 ^ 32), r.2)

/-- At most `width` bytes of a set, and at least one: `%64[^,]` for the bytes that are no
comma. -/
def scanSet (width : Nat) (p : UInt8 → Bool) (text : List UInt8) :
    Option (List UInt8 × List UInt8) :=
  let run := (text.take width).takeWhile p
  if run = [] then none else some (run, text.drop run.length)

/-- `%64s` for a width of 64. -/
def word (width : Nat) (text : List UInt8) : Option (List UInt8 × List UInt8) :=
  scanSet width (fun b => !isSpace b) (text.dropWhile isSpace)

/-- A conversion and the comma behind it. -/
def field {α : Type} (conv : List UInt8 → Option (α × List UInt8)) (text : List UInt8) :
    Option (α × List UInt8) := do
  let (v, rest) ← conv text
  let rest ← literal [comma] rest
  return (v, rest)

/-- The exponent of a number, 0 if it has none. -/
def exponent : List UInt8 → Option (Int × List UInt8)
  | [] => some (0, [])
  | b :: rest =>
    if b.toNat = 101 ∨ b.toNat = 69 then
      let signed := sign rest
      let digits := signed.2.takeWhile isDigit
      if digits = [] then none
      else
        let v : Int := digitsVal digits
        some (if signed.1 then -v else v, signed.2.dropWhile isDigit)
    else some (0, b :: rest)

/-- The fraction of a number: the digits behind its point. -/
def fraction : List UInt8 → List UInt8 × List UInt8
  | [] => ([], [])
  | b :: rest =>
    if b.toNat = 46 then (rest.takeWhile isDigit, rest.dropWhile isDigit) else ([], b :: rest)

/-- `m * 10 ^ e`. -/
def scale (m : Rat) (e : Int) : Rat :=
  if 0 ≤ e then m * 10 ^ e.toNat else m / 10 ^ (-e).toNat

/-- `%lf` on the decimal form of a number, read as the rational it stands for. `inf`, `nan`
and the hexadecimal form are not read, and nothing is rounded. -/
def real (text : List UInt8) : Option (Rat × List UInt8) := do
  let signed := sign (text.dropWhile isSpace)
  let whole := signed.2.takeWhile isDigit
  let frac := fraction (signed.2.dropWhile isDigit)
  if whole = [] ∧ frac.1 = [] then none
  let (e, rest) ← exponent frac.2
  let v := scale (digitsVal (whole ++ frac.1)) (e - frac.1.length)
  return (if signed.1 then -v else v, rest)

/-- `%d`. -/
def printInt (v : Int) : List UInt8 := (if v < 0 then [45] else []) ++ decimal v.natAbs

/-- The integer next to a rational that is not negative, the even one of two. -/
def roundHalfEven (x : Rat) : Nat :=
  let n := x.floor.toNat
  let d := x - n
  if d < 1 / 2 then n else if 1 / 2 < d then n + 1 else if n % 2 = 0 then n else n + 1

/-- `%.6f`. -/
def fixed6 (x : Rat) : List UInt8 :=
  let n := roundHalfEven ((if x < 0 then -x else x) * 10 ^ 6)
  let frac := decimal (n % 10 ^ 6)
  (if x < 0 then [45] else []) ++ decimal (n / 10 ^ 6) ++ [46] ++
    List.replicate (6 - frac.length) 48 ++ frac

/-! ## Lines -/

/-- `fgets` into a buffer with room for `room` bytes before its NUL: up to a newline,
which it keeps. -/
def fgets : Nat → List UInt8 → List UInt8
  | 0, _ => []
  | _, [] => []
  | room + 1, b :: bs => if b = newline then [b] else b :: fgets room bs

/-- At most `count` calls of `fgets`. -/
def readLines (room : Nat) : Nat → List UInt8 → List (List UInt8)
  | 0, _ => []
  | _, [] => []
  | count + 1, b :: bs =>
    fgets room (b :: bs) ::
      readLines room count ((b :: bs).drop (fgets room (b :: bs)).length)

/-- All lines of a file. -/
def linesOf (room : Nat) (file : List UInt8) : List (List UInt8) := readLines room file.length file

/-- A line: its last byte is its only newline. -/
def IsLine (l : List UInt8) : Prop := ∃ body, newline ∉ body ∧ l = body ++ [newline]

theorem isLine_newline : IsLine [newline] := ⟨[], List.not_mem_nil, rfl⟩

theorem IsLine.append {l : List UInt8} (h : IsLine l) {text : List UInt8} (ht : newline ∉ text) :
    IsLine (text ++ l) := by
  obtain ⟨body, hbody, rfl⟩ := h
  refine ⟨text ++ body, ?_, (List.append_assoc ..).symm⟩
  rw [List.mem_append, not_or]
  exact ⟨ht, hbody⟩

theorem IsLine.cons {l : List UInt8} (h : IsLine l) {b : UInt8} (hb : newline ≠ b) :
    IsLine (b :: l) := by
  have hsingle : newline ∉ [b] := by
    rw [List.mem_singleton]
    exact hb
  exact h.append hsingle

/-- A field and the comma after it, in front of the rest of a line. -/
theorem isLine_field {l text : List UInt8} (h : IsLine l) (ht : newline ∉ text) :
    IsLine (text ++ comma :: l) :=
  (h.cons (by decide)).append ht

theorem isLine_last {text : List UInt8} (ht : newline ∉ text) : IsLine (text ++ [newline]) :=
  isLine_newline.append ht

theorem fgets_line {body : List UInt8} (h : newline ∉ body) {room : Nat}
    (hroom : body.length < room) (rest : List UInt8) :
    fgets room (body ++ newline :: rest) = body ++ [newline] := by
  induction body generalizing room with
  | nil =>
    obtain ⟨r, rfl⟩ : ∃ r, room = r + 1 := ⟨room - 1, by simp at hroom; omega⟩
    simp [fgets]
  | cons b body ih =>
    obtain ⟨r, rfl⟩ : ∃ r, room = r + 1 := ⟨room - 1, by simp at hroom; omega⟩
    simp only [List.mem_cons, not_or] at h
    simp only [List.length_cons, Nat.add_lt_add_iff_right] at hroom
    simp only [List.cons_append, fgets, if_neg (Ne.symm h.1), ih h.2 hroom]

/-- A line that fits the buffer is read before what follows it. -/
theorem readLines_line {room : Nat} {l : List UInt8} (h : IsLine l) (hroom : l.length ≤ room)
    (count : Nat) (rest : List UInt8) :
    readLines room (count + 1) (l ++ rest) = l :: readLines room count rest := by
  obtain ⟨body, hbody, rfl⟩ := h
  rw [List.length_append, List.length_singleton] at hroom
  have happ : (body ++ [newline]) ++ rest = body ++ newline :: rest := by
    rw [List.append_assoc, List.singleton_append]
  have hlt : body.length < room := by omega
  have hfirst := fgets_line hbody hlt rest
  rw [← happ] at hfirst
  obtain ⟨b, bs, hcons⟩ := List.exists_cons_of_ne_nil
    (List.append_ne_nil_of_left_ne_nil (List.concat_ne_nil newline body) rest)
  rw [hcons] at hfirst ⊢
  rw [readLines, hfirst, ← hcons, List.drop_left]

theorem readLines_flatten {room : Nat} {ls : List (List UInt8)}
    (h : ∀ l ∈ ls, IsLine l ∧ l.length ≤ room) {count : Nat} (rest : List UInt8)
    (hcount : (ls.flatten ++ rest).length ≤ count) :
    ∃ left, rest.length ≤ left ∧
      readLines room count (ls.flatten ++ rest) = ls ++ readLines room left rest := by
  induction ls generalizing count with
  | nil => exact ⟨count, hcount, rfl⟩
  | cons l ls ih =>
    obtain ⟨hline, hlen⟩ := h l List.mem_cons_self
    have hpos : 0 < l.length := by
      obtain ⟨body, -, rfl⟩ := hline
      simp
    rw [List.flatten_cons, List.append_assoc] at hcount ⊢
    rw [List.length_append] at hcount
    obtain ⟨k, rfl⟩ : ∃ k, count = k + 1 := ⟨count - 1, by omega⟩
    obtain ⟨left, hleft, hread⟩ := ih (fun l hl => h l (List.mem_cons_of_mem _ hl))
      (show (ls.flatten ++ rest).length ≤ k by omega)
    exact ⟨left, hleft, by rw [readLines_line hline hlen, hread]; rfl⟩

theorem readLines_nil (room count : Nat) : readLines room count [] = [] := by
  cases count with
  | zero => rfl
  | succ count => rfl

theorem fgets_unfinished {text : List UInt8} (h : newline ∉ text) {room : Nat}
    (hroom : text.length ≤ room) : fgets room text = text := by
  induction text generalizing room with
  | nil => cases room <;> rfl
  | cons b text ih =>
    rw [List.mem_cons, not_or] at h
    obtain ⟨r, rfl⟩ : ∃ r, room = r + 1 := ⟨room - 1, by simp at hroom; omega⟩
    rw [List.length_cons, Nat.add_le_add_iff_right] at hroom
    rw [fgets, if_neg (Ne.symm h.1), ih h.2 hroom]

/-- Lines that fit the buffer are read back as they were written, and so is what is behind them
where it has no end. -/
theorem linesOf_unfinished {room : Nat} {ls : List (List UInt8)} {rest : List UInt8}
    (h : ∀ l ∈ ls, IsLine l ∧ l.length ≤ room) (hrest : newline ∉ rest)
    (hroom : rest.length ≤ room) :
    linesOf room (ls.flatten ++ rest) = ls ++ if rest = [] then [] else [rest] := by
  obtain ⟨left, hleft, hread⟩ := readLines_flatten h rest (Nat.le_refl _)
  rw [linesOf, hread]
  cases rest with
  | nil => rw [readLines_nil, if_pos rfl]
  | cons b bs =>
    obtain ⟨k, rfl⟩ : ∃ k, left = k + 1 := ⟨left - 1, by simp at hleft; omega⟩
    rw [readLines, fgets_unfinished hrest hroom, List.drop_length, readLines_nil,
      if_neg (List.cons_ne_nil b bs)]

theorem linesOf_flatten {room : Nat} {ls : List (List UInt8)}
    (h : ∀ l ∈ ls, IsLine l ∧ l.length ≤ room) : linesOf room ls.flatten = ls := by
  have hread := linesOf_unfinished h List.not_mem_nil (Nat.zero_le room)
  rwa [List.append_nil, if_pos rfl, List.append_nil] at hread

/-! ## Reading decimals back -/

theorem digitsVal_append_one (digits : List UInt8) (d : UInt8) :
    digitsVal (digits ++ [d]) = 10 * digitsVal digits + (d.toNat - 48) := by
  simp [digitsVal, List.foldl_append]

theorem digitsVal_decimal (n : Nat) : digitsVal (decimal n) = n := by
  have hdigits : ∀ ds : List Nat, (∀ d ∈ ds, d < 10) →
      digitsVal (ds.reverse.map fun d => UInt8.ofNat (48 + d)) = Nat.ofDigits 10 ds := by
    intro ds hds
    induction ds with
    | nil => rfl
    | cons d ds ih =>
      have hd : (UInt8.ofNat (48 + d)).toNat = 48 + d := by
        have := hds d List.mem_cons_self
        rw [UInt8.toNat_ofNat', Nat.mod_eq_of_lt (by omega)]
      have hrest := ih fun d' hd' => hds d' (List.mem_cons_of_mem d hd')
      rw [List.reverse_cons, List.map_append, List.map_singleton, digitsVal_append_one, hrest, hd,
        Nat.ofDigits_cons]
      omega
  unfold decimal
  split
  · rename_i h
    rw [h]
    rfl
  · rw [hdigits _ fun d hd => Nat.digits_lt_base (by decide) hd, Nat.ofDigits_digits]

theorem isDigit_of_mem_decimal {n : Nat} {b : UInt8} (h : b ∈ decimal n) : isDigit b = true := by
  have hb := decimal_digits h
  simp [isDigit, hb.1, hb.2]

theorem not_mem_decimal {b : UInt8} (h : isDigit b = false) (n : Nat) : b ∉ decimal n := by
  intro hmem
  rw [isDigit_of_mem_decimal hmem] at h
  cases h

theorem newline_not_mem_decimal (n : Nat) : newline ∉ decimal n := not_mem_decimal rfl n

theorem newline_not_mem_fixed6 (x : Rat) : newline ∉ fixed6 x := by
  intro h
  simp only [fixed6, List.mem_append, List.mem_replicate, List.mem_singleton] at h
  rcases h with (((h | h) | h) | ⟨-, h⟩) | h
  · split at h
    · exact absurd h (by decide)
    · cases h
  · exact newline_not_mem_decimal _ h
  · exact absurd h (by decide)
  · exact absurd h (by decide)
  · exact newline_not_mem_decimal _ h

/-- A number ends where no digit follows. -/
def Delimited (rest : List UInt8) : Prop := ∀ b, rest.head? = some b → isDigit b = false

theorem delimited_comma (rest : List UInt8) : Delimited (comma :: rest) := by
  intro b hb
  cases hb
  rfl

theorem delimited_newline : Delimited [newline] := by
  intro b hb
  cases hb
  rfl

theorem span_digits {digits rest : List UInt8} (hdigits : ∀ b ∈ digits, isDigit b = true)
    (h : Delimited rest) :
    (digits ++ rest).takeWhile isDigit = digits ∧ (digits ++ rest).dropWhile isDigit = rest := by
  rw [List.takeWhile_append_of_pos hdigits, List.dropWhile_append_of_pos hdigits]
  cases rest with
  | nil => simp
  | cons b rest =>
    have hb := h b rfl
    simp [hb]

theorem span_decimal {n : Nat} {rest : List UInt8} (h : Delimited rest) :
    (decimal n ++ rest).takeWhile isDigit = decimal n ∧
    (decimal n ++ rest).dropWhile isDigit = rest :=
  span_digits (fun _ hb => isDigit_of_mem_decimal hb) h

/-- A decimal starts with a digit, so neither with white space nor with a sign. -/
theorem sign_decimal (n : Nat) (rest : List UInt8) :
    sign ((decimal n ++ rest).dropWhile isSpace) = (false, decimal n ++ rest) := by
  obtain ⟨b, bs, hb⟩ := List.exists_cons_of_ne_nil (decimal_ne_nil n)
  have hdigit := decimal_digits (n := n) (b := b) (by rw [hb]; exact List.mem_cons_self)
  have hspace : isSpace b = false := by
    simp only [isSpace, Bool.or_eq_false_iff, Bool.and_eq_false_iff, beq_eq_false_iff_ne,
      decide_eq_false_iff_not]
    omega
  have hminus : b.toNat ≠ 45 := by omega
  have hplus : b.toNat ≠ 43 := by omega
  rw [hb]
  simp [hspace, sign, hminus, hplus]

theorem integer_decimal (n : Nat) {rest : List UInt8} (h : Delimited rest) :
    integer (decimal n ++ rest) = some ((false, n), rest) := by
  obtain ⟨htake, hdrop⟩ := span_decimal (n := n) h
  simp only [integer, sign_decimal, htake, hdrop, if_neg (decimal_ne_nil n), digitsVal_decimal]

theorem u64_decimal (v : UInt64) {rest : List UInt8} (h : Delimited rest) :
    u64 (decimal v.toNat ++ rest) = some (v, rest) := by
  have hlt : ¬ 2 ^ 64 ≤ v.toNat := Nat.not_le.mpr v.toNat_lt
  simp only [u64, integer_decimal _ h, Option.map_some, toUnsigned, if_neg hlt, Bool.false_eq_true,
    if_false, UInt64.ofNat_toNat]

theorem u32_decimal (v : UInt32) {rest : List UInt8} (h : Delimited rest) :
    u32 (decimal v.toNat ++ rest) = some (v, rest) := by
  have hlt : ¬ 2 ^ 64 ≤ v.toNat := by
    have := v.toNat_lt
    omega
  have hcast : (UInt64.ofNat v.toNat).toUInt32 = v := by
    apply UInt32.toNat.inj
    have := v.toNat_lt
    simp only [UInt64.toNat_toUInt32, UInt64.toNat_ofNat']
    omega
  simp only [u32, integer_decimal _ h, Option.map_some, toUnsigned, if_neg hlt, Bool.false_eq_true,
    if_false, hcast]

/-- A text that starts with something else than white space, a sign or a digit is no
integer. -/
theorem integer_eq_none {b : UInt8} {rest : List UInt8} (hspace : isSpace b = false)
    (hdigit : isDigit b = false) (hsign : b.toNat ≠ 45 ∧ b.toNat ≠ 43) :
    integer (b :: rest) = none := by
  simp [integer, hspace, sign, hsign.1, hsign.2, hdigit]

@[simp] theorem literal_append (lit rest : List UInt8) : literal lit (lit ++ rest) = some rest := by
  have hprefix : lit.isPrefixOf (lit ++ rest) = true :=
    List.isPrefixOf_iff_prefix.mpr (List.prefix_append lit rest)
  simp [literal, hprefix]

theorem literal_comma (rest : List UInt8) : literal [comma] (comma :: rest) = some rest :=
  literal_append [comma] rest

theorem literal_eq_none {b b' : UInt8} (h : b ≠ b') (lit rest : List UInt8) :
    literal (b :: lit) (b' :: rest) = none := by
  simp [literal, List.isPrefixOf, h]

theorem literal_some {lit text rest : List UInt8} (h : literal lit text = some rest) :
    text = lit ++ rest := by
  unfold literal at h
  split at h
  · rename_i hprefix
    obtain ⟨tail, rfl⟩ := List.isPrefixOf_iff_prefix.mp hprefix
    cases h
    rw [List.drop_left]
  · cases h

/-- One conversion of a format. -/
theorem bind_conv {α β : Type} {x : Option α} {f : α → Option β} {v : α} {r : Option β}
    (hx : x = some v) (hf : f v = r) : x >>= f = r := by
  rw [hx]
  exact hf

theorem field_eq {α : Type} {conv : List UInt8 → Option (α × List UInt8)}
    {text rest : List UInt8} {v : α} (h : conv (text ++ comma :: rest) = some (v, comma :: rest)) :
    field conv (text ++ comma :: rest) = some (v, rest) := by
  simp only [field, h, Option.bind_eq_bind, Option.bind_some, literal_comma]
  rfl

theorem scanSet_full {run : List UInt8} {width : Nat} {p : UInt8 → Bool}
    (hlen : run.length = width) (hne : run ≠ []) (hrun : ∀ b ∈ run, p b = true)
    (rest : List UInt8) : scanSet width p (run ++ rest) = some (run, rest) := by
  have htake : (run ++ rest).take width = run := by
    rw [← hlen, List.take_left]
  have hall : run.takeWhile p = run := List.takeWhile_eq_self_iff.mpr hrun
  simp only [scanSet, htake, hall, if_neg hne, List.drop_left]

/-! ## Reading signed decimals back -/

theorem integer_printInt (v : Int) {rest : List UInt8} (h : Delimited rest) :
    integer (printInt v ++ rest) = some ((decide (v < 0), v.natAbs), rest) := by
  unfold printInt
  by_cases hneg : v < 0
  · obtain ⟨htake, hdrop⟩ := span_decimal (n := v.natAbs) h
    have hsign : sign ((45 :: (decimal v.natAbs ++ rest)).dropWhile isSpace) =
        (true, decimal v.natAbs ++ rest) := rfl
    simp only [if_pos hneg, decide_eq_true hneg, List.cons_append, List.nil_append, integer, hsign,
      htake, hdrop, if_neg (decimal_ne_nil _), digitsVal_decimal]
  · simp only [if_neg hneg, decide_eq_false hneg, List.nil_append, integer_decimal _ h]

/-- An `int` that was written in decimal is read back. -/
theorem i32_printInt {v : Int} (hv : -2 ^ 31 ≤ v ∧ v < 2 ^ 31) {rest : List UInt8}
    (h : Delimited rest) : i32 (printInt v ++ rest) = some (v, rest) := by
  have hsigned : toSigned (decide (v < 0), v.natAbs) = v := by
    by_cases hneg : v < 0
    · simp only [toSigned, decide_eq_true hneg, if_true]
      omega
    · simp only [toSigned, decide_eq_false hneg, Bool.false_eq_true, if_false]
      omega
  have hmod : v.bmod (2 ^ 32) = v := Int.bmod_eq_of_le (by omega) (by omega)
  simp only [i32, integer_printInt v h, Option.map_some, hsigned, hmod]

theorem not_mem_printInt {b : UInt8} (h : isDigit b = false) (hminus : b ≠ 45) (v : Int) :
    b ∉ printInt v := by
  intro hmem
  rcases List.mem_append.mp hmem with hmem | hmem
  · split at hmem
    · exact hminus (List.mem_singleton.mp hmem)
    · cases hmem
  · exact not_mem_decimal h _ hmem

/-! ## What a conversion leaves -/

theorem sign_suffix (text : List UInt8) : (sign text).2 <:+ text := by
  unfold sign
  split
  · exact List.suffix_rfl
  · split
    · exact List.suffix_cons _ _
    · split
      · exact List.suffix_cons _ _
      · exact List.suffix_rfl

theorem integer_suffix {text rest : List UInt8} {v : Bool × Nat}
    (h : integer text = some (v, rest)) : rest <:+ text := by
  simp only [integer] at h
  split at h
  · cases h
  · cases h
    exact ((List.dropWhile_suffix _).trans (sign_suffix _)).trans (List.dropWhile_suffix _)

theorem u64_suffix {text rest : List UInt8} {v : UInt64} (h : u64 text = some (v, rest)) :
    rest <:+ text := by
  obtain ⟨⟨w, rest'⟩, hi, he⟩ := Option.map_eq_some_iff.mp h
  cases he
  exact integer_suffix hi

theorem exponent_suffix {text rest : List UInt8} {e : Int} (h : exponent text = some (e, rest)) :
    rest <:+ text := by
  unfold exponent at h
  split at h
  · cases h
    exact List.suffix_rfl
  · split at h
    · simp only at h
      split at h
      · cases h
      · cases h
        refine ((List.dropWhile_suffix _).trans (sign_suffix _)).trans ?_
        exact List.suffix_cons _ _
    · cases h
      exact List.suffix_rfl

theorem fraction_suffix (text : List UInt8) : (fraction text).2 <:+ text := by
  unfold fraction
  split
  · exact List.suffix_rfl
  · split
    · exact (List.dropWhile_suffix _).trans (List.suffix_cons _ _)
    · exact List.suffix_rfl

theorem real_suffix {text rest : List UInt8} {v : Rat} (h : real text = some (v, rest)) :
    rest <:+ text := by
  simp only [real, Option.bind_eq_bind] at h
  split at h
  · cases h
  · obtain ⟨⟨e, rest'⟩, he, hv⟩ := Option.bind_eq_some_iff.mp h
    cases hv
    refine (exponent_suffix he).trans ((fraction_suffix _).trans ?_)
    exact ((List.dropWhile_suffix _).trans (sign_suffix _)).trans (List.dropWhile_suffix _)

/-! ## Reading numbers with a fraction -/

/-- No exponent follows. -/
theorem exponent_none {text : List UInt8}
    (h : ∀ b, text.head? = some b → b.toNat ≠ 101 ∧ b.toNat ≠ 69) :
    exponent text = some (0, text) := by
  cases text with
  | nil => rfl
  | cons b text =>
    obtain ⟨hlower, hupper⟩ := h b rfl
    simp [exponent, hlower, hupper]

theorem isSpace_digit {b : UInt8} (h : isDigit b = true) : isSpace b = false := by
  simp only [isDigit, Bool.and_eq_true, decide_eq_true_eq] at h
  simp only [isSpace, Bool.or_eq_false_iff, Bool.and_eq_false_iff, beq_eq_false_iff_ne,
    decide_eq_false_iff_not]
  omega

theorem sign_digit {b : UInt8} (h : isDigit b = true) (text : List UInt8) :
    sign ((b :: text).dropWhile isSpace) = (false, b :: text) := by
  rw [List.dropWhile_cons_of_neg (by simp [isSpace_digit h])]
  simp only [isDigit, Bool.and_eq_true, decide_eq_true_eq] at h
  rw [sign, if_neg (by omega), if_neg (by omega)]

/-- A text that starts with a digit and has no exponent is read as a number. -/
theorem real_isSome {b : UInt8} {text : List UInt8} (hb : isDigit b = true)
    (h : ∀ c ∈ text, c.toNat ≠ 101 ∧ c.toNat ≠ 69) : (real (b :: text)).isSome = true := by
  have hwhole : (b :: text).takeWhile isDigit ≠ [] := by simp [hb]
  have hrest : (b :: text).dropWhile isDigit = text.dropWhile isDigit :=
    List.dropWhile_cons_of_pos hb
  have hend : exponent (fraction (text.dropWhile isDigit)).2 =
      some (0, (fraction (text.dropWhile isDigit)).2) := by
    apply exponent_none
    intro c hc
    apply h c
    have hmem := (fraction_suffix _).mem (List.mem_of_mem_head? hc)
    exact (List.dropWhile_suffix _).mem hmem
  simp only [real, Option.bind_eq_bind, sign_digit hb, hrest]
  rw [if_neg fun hempty => hwhole hempty.1, hend]
  rfl

/-- The digits of a number printed with `%.6f`, where it is not negative. -/
theorem fixed6_eq {x : Rat} (hx : 0 ≤ x) : ∃ n frac, (∀ b ∈ frac, isDigit b = true) ∧
    fixed6 x = decimal n ++ 46 :: frac := by
  simp only [fixed6, if_neg (Rat.not_lt.mpr hx), List.nil_append]
  generalize roundHalfEven (x * 10 ^ 6) = n
  refine ⟨n / 10 ^ 6, List.replicate (6 - (decimal (n % 10 ^ 6)).length) 48 ++
    decimal (n % 10 ^ 6), ?_, ?_⟩
  · intro b hb
    rcases List.mem_append.mp hb with hb | hb
    · rw [(List.mem_replicate.mp hb).2]
      rfl
    · exact isDigit_of_mem_decimal hb
  · simp only [List.append_assoc, List.cons_append, List.nil_append]

/-- Such a number is read up to where it ends. -/
theorem real_fixed6 {x : Rat} (hx : 0 ≤ x) {rest : List UInt8} (h : Delimited rest)
    (hend : exponent rest = some (0, rest)) : ∃ v, real (fixed6 x ++ rest) = some (v, rest) := by
  obtain ⟨n, frac, hfrac, hx⟩ := fixed6_eq hx
  have hpoint : Delimited (46 :: (frac ++ rest)) := by
    intro b hb
    cases hb
    rfl
  obtain ⟨htake, hdrop⟩ := span_decimal (n := n) hpoint
  obtain ⟨htake', hdrop'⟩ := span_digits hfrac h
  have hpart : fraction (46 :: (frac ++ rest)) = (frac, rest) := by
    simp [fraction, htake', hdrop']
  rw [hx, List.append_assoc, List.cons_append]
  simp only [real, Option.bind_eq_bind, sign_decimal, htake, hdrop, hpart]
  rw [if_neg fun hempty => decimal_ne_nil n hempty.1, hend]
  exact ⟨_, rfl⟩

theorem roundHalfEven_le {x : Rat} {m : Nat} (h : x ≤ m) : roundHalfEven x ≤ m := by
  have hfloor : x.floor ≤ (m : Int) := by
    have hle := Rat.floor_monotone h
    rwa [← Rat.intCast_natCast, Rat.floor_intCast] at hle
  unfold roundHalfEven
  simp only
  by_cases hlt : x.floor.toNat < m
  · split
    · omega
    split
    · omega
    split
    · omega
    · omega
  · have hn : x.floor.toNat = m := by omega
    have hd : x - (m : Nat) < 1 / 2 := by grind
    rw [hn, if_pos hd]

/-- A number up to 1 is printed in eight bytes. -/
theorem fixed6_length {x : Rat} (h0 : 0 ≤ x) (h1 : x ≤ 1) : (fixed6 x).length = 8 := by
  have hle : roundHalfEven (x * 10 ^ 6) ≤ 10 ^ 6 := by
    apply roundHalfEven_le
    have hscaled := Rat.mul_le_mul_of_nonneg_right h1 (by decide : (0 : Rat) ≤ 10 ^ 6)
    rw [Rat.one_mul] at hscaled
    exact hscaled
  simp only [fixed6, if_neg (Rat.not_lt.mpr h0), List.nil_append]
  generalize roundHalfEven (x * 10 ^ 6) = n at hle ⊢
  have hwhole : (decimal (n / 10 ^ 6)).length ≤ 1 := decimal_length_le (by decide) (by omega)
  have hpos := List.length_pos_of_ne_nil (decimal_ne_nil (n / 10 ^ 6))
  have hfrac : (decimal (n % 10 ^ 6)).length ≤ 6 :=
    decimal_length_le (by decide) (Nat.mod_lt _ (by decide))
  simp only [List.length_append, List.length_replicate, List.length_singleton]
  omega

end Scan
