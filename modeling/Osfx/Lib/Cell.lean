/-!
# Length-tagged C buffers

A `Cell n` is a C array of `n` bytes with the `uint8_t` length kept next to it.
Writing a shorter text leaves the old bytes behind it in place, so two cells can
hold the same text and still differ; `store` is the write, `bytes` the text held,
`differs` the comparison by length and `memcmp`.

* `bytes_store`: a cell holds what was stored in it;
* `differs_eq_false`: the comparison is the one of the texts;
* `store_bytes`: storing the text a terminated cell holds changes nothing.
-/

/-- A length as the code keeps it in a `uint8_t`. -/
def lenU8 (b : List UInt8) : UInt8 := UInt8.ofNat b.length

theorem lenU8_toNat {b : List UInt8} (h : b.length < 256) : (lenU8 b).toNat = b.length := by
  simp [lenU8, Nat.mod_eq_of_lt h]

/-- `memcpy` to the front of a buffer. -/
def memcpy {n : Nat} (dst : Vector UInt8 n) (src : List UInt8) : Vector UInt8 n :=
  Vector.ofFn fun i => src.getD i.val dst[i.val]

/-- `strnlen`: the length up to the first NUL, the whole buffer if there is none. -/
def strnlen {n : Nat} (s : Vector UInt8 n) : Nat :=
  (s.toList.takeWhile (· ≠ 0)).length

/-- A buffer and the length of the text it holds. -/
@[ext] structure Cell (n : Nat) where
  row : Vector UInt8 n
  len : UInt8
  deriving DecidableEq, Repr

namespace Cell

variable {n : Nat}

def zero (n : Nat) : Cell n := ⟨Vector.replicate n 0, 0⟩

/-- The text held: the first `len` bytes. -/
def bytes (c : Cell n) : List UInt8 := c.row.toList.take c.len.toNat

/-- Write a text and its terminator, and its length. -/
def store (c : Cell n) (b : List UInt8) : Cell n :=
  ⟨memcpy c.row ((b ++ [0]).take ((lenU8 b).toNat + 1)), lenU8 b⟩

/-- `len != new_len || memcmp(row, text, new_len) != 0`. -/
def differs (c : Cell n) (b : List UInt8) : Bool :=
  c.len != lenU8 b || c.row.toList.take (lenU8 b).toNat != b.take (lenU8 b).toNat

/-- The byte behind the text is NUL. -/
def Terminated (c : Cell n) : Prop := c.row.toList[c.len.toNat]? = some 0

end Cell

theorem getElem_memcpy {n : Nat} (dst : Vector UInt8 n) (src : List UInt8) (i : Nat) (hi : i < n) :
    (memcpy dst src)[i] = src.getD i dst[i] := by
  simp [memcpy]

theorem memcpy_toList {n : Nat} (dst : Vector UInt8 n) {src : List UInt8} (h : src.length ≤ n) :
    (memcpy dst src).toList = src ++ dst.toList.drop src.length := by
  apply List.ext_getElem
  · simp; omega
  · intro i hi hj
    simp only [Vector.length_toList] at hi
    rw [Vector.getElem_toList, getElem_memcpy dst src i hi]
    by_cases hs : i < src.length
    · rw [List.getElem_append_left hs]
      simp [List.getD, hs]
    · rw [List.getElem_append_right (by omega)]
      simp [List.getD, hs]
      congr 1
      omega

theorem memcpy_self {n : Nat} {dst : Vector UInt8 n} {src : List UInt8}
    (h : dst.toList.take src.length = src) : memcpy dst src = dst := by
  ext i hi
  rw [getElem_memcpy dst src i hi]
  by_cases hs : i < src.length
  · have : src[i]? = dst.toList[i]? := by rw [← h]; simp [hs]
    simp [List.getD, this, hi]
  · simp [List.getD, hs]

/-- A text shorter than its buffer ends at a NUL. -/
theorem strnlen_spec {n : Nat} {s : Vector UInt8 n} (h : strnlen s < n) :
    s.toList.take (strnlen s + 1) = s.toList.take (strnlen s) ++ [0] := by
  have stops : ∀ l : List UInt8, (l.takeWhile (· ≠ 0)).length < l.length →
      l[(l.takeWhile (· ≠ 0)).length]? = some 0 := by
    intro l
    induction l with
    | nil => intro h; cases h
    | cons x l ih =>
      intro h
      by_cases hx : x = 0
      · simp [hx]
      · have hl : (l.takeWhile (· ≠ 0)).length < l.length := by simpa [hx] using h
        simpa [hx] using ih hl
  have hz := stops s.toList (by rw [Vector.length_toList]; exact h)
  rw [List.take_add_one, strnlen, hz]
  rfl

namespace Cell

variable {n : Nat}

theorem store_len {b : List UInt8} (h : b.length < 256) (c : Cell n) :
    (c.store b).len.toNat = b.length := lenU8_toNat h

theorem store_row {c : Cell n} {b : List UInt8} (h : b.length < 256) :
    (c.store b).row = memcpy c.row (b ++ [0]) := by
  simp only [store, lenU8_toNat h]
  rw [List.take_of_length_le (by simp)]

theorem bytes_store {c : Cell n} {b : List UInt8} (h : b.length < 256) (hn : b.length < n) :
    (c.store b).bytes = b := by
  rw [bytes, store_len h, store_row h, memcpy_toList _ (by simp; omega), List.append_assoc,
    List.take_left']
  rfl

theorem terminated_store {c : Cell n} {b : List UInt8} (h : b.length < 256) (hn : b.length < n) :
    (c.store b).Terminated := by
  rw [Terminated, store_len h, store_row h, memcpy_toList _ (by simp; omega)]
  simp

theorem len_of_bytes {c : Cell n} {b : List UInt8} (h : c.bytes = b) (hn : b.length < n) :
    c.len.toNat = b.length := by
  have := congrArg List.length h
  simp only [bytes, List.length_take, Vector.length_toList] at this
  omega

theorem differs_eq_false {c : Cell n} {b : List UInt8} (h : b.length < 256) (hn : b.length < n) :
    c.differs b = false ↔ c.bytes = b := by
  simp only [differs, bytes, lenU8_toNat h, List.take_length, Bool.or_eq_false_iff,
    bne_eq_false_iff_eq]
  constructor
  · rintro ⟨hl, hb⟩
    rw [hl, lenU8_toNat h]; exact hb
  · intro hb
    have hl := len_of_bytes hb hn
    refine ⟨?_, hl ▸ hb⟩
    rw [← UInt8.toNat_inj, lenU8_toNat h, hl]

theorem store_eq_self {c : Cell n} {b : List UInt8} (h : b.length < 256) (hn : b.length < n) :
    c.store b = c ↔ c.bytes = b ∧ c.Terminated := by
  constructor
  · intro he
    exact he ▸ ⟨bytes_store h hn, terminated_store h hn⟩
  · rintro ⟨hb, ht⟩
    have hl := len_of_bytes hb hn
    have hrow : c.row.toList.take (b ++ [0]).length = b ++ [0] := by
      rw [List.length_append, List.length_singleton, List.take_add_one]
      rw [Terminated, hl] at ht
      rw [bytes, hl] at hb
      rw [hb, ht]; rfl
    ext1
    · rw [store_row h, memcpy_self hrow]
    · rw [← UInt8.toNat_inj, store_len h, hl]

end Cell

/-! ## Arrays of cells -/

namespace Cells

variable {n k : Nat}

/-- The cells from `i` on hold these texts. -/
def Holds (cells : Vector (Cell n) k) : Nat → List (List UInt8) → Prop
  | _, [] => True
  | i, b :: bs => (∃ h : i < k, cells[i].bytes = b) ∧ Holds cells (i + 1) bs

instance decidableHolds (cells : Vector (Cell n) k) (i : Nat) (bs : List (List UInt8)) :
    Decidable (Holds cells i bs) :=
  match bs with
  | [] => isTrue trivial
  | b :: bs =>
    have := decidableHolds cells (i + 1) bs
    inferInstanceAs (Decidable ((∃ h : i < k, cells[i].bytes = b) ∧ Holds cells (i + 1) bs))

/-- Store texts in the cells from `i` on; texts past the end are dropped. -/
def storeFrom (cells : Vector (Cell n) k) : Nat → List (List UInt8) → Vector (Cell n) k
  | _, [] => cells
  | i, b :: bs => if h : i < k then storeFrom (cells.set i (cells[i].store b)) (i + 1) bs else cells

/-- Every text is followed by a NUL. -/
def Terminated (cells : Vector (Cell n) k) : Prop := ∀ (i : Nat) (h : i < k), cells[i].Terminated

/-- The text fits a cell of `n` bytes and its length a `uint8_t`. -/
def Fits (n : Nat) (b : List UInt8) : Prop := b.length < 256 ∧ b.length < n

theorem terminated_set {cells : Vector (Cell n) k} {i : Nat} {cell : Cell n} (hi : i < k)
    (hc : cell.Terminated) (ht : Terminated cells) : Terminated (cells.set i cell) := by
  intro j hj
  by_cases he : i = j
  · subst he
    simpa using hc
  · simpa [he] using ht j hj

theorem getElem_storeFrom_lt {bs : List (List UInt8)} {cells : Vector (Cell n) k} {i j : Nat}
    (hj : j < k) (hlt : j < i) : (storeFrom cells i bs)[j] = cells[j] := by
  induction bs generalizing cells i with
  | nil => rfl
  | cons b bs ih =>
    rw [storeFrom]
    split
    · rw [ih (by omega)]
      have hne : i ≠ j := by omega
      simp [hne]
    · rfl

theorem terminated_storeFrom {bs : List (List UInt8)} {cells : Vector (Cell n) k} {i : Nat}
    (hfit : ∀ b ∈ bs, Fits n b) (ht : Terminated cells) : Terminated (storeFrom cells i bs) := by
  induction bs generalizing cells i with
  | nil => exact ht
  | cons b bs ih =>
    rw [storeFrom]
    split
    · rename_i hi
      obtain ⟨h256, hn⟩ := hfit b List.mem_cons_self
      have hc := Cell.terminated_store (c := cells[i]) h256 hn
      exact ih (fun x hx => hfit x (List.mem_cons_of_mem b hx)) (terminated_set hi hc ht)
    · exact ht

theorem holds_congr {cells cells' : Vector (Cell n) k} {i : Nat} (bs : List (List UInt8))
    (h : ∀ (j : Nat) (_ : j < k), i ≤ j → cells[j] = cells'[j]) :
    Holds cells i bs ↔ Holds cells' i bs := by
  induction bs generalizing i with
  | nil => rfl
  | cons b bs ih =>
    have htail := ih (i := i + 1) fun j hj hij => h j hj (by omega)
    constructor
    · rintro ⟨⟨hi, hb⟩, hbs⟩
      exact ⟨⟨hi, h i hi (Nat.le_refl i) ▸ hb⟩, htail.mp hbs⟩
    · rintro ⟨⟨hi, hb⟩, hbs⟩
      exact ⟨⟨hi, (h i hi (Nat.le_refl i)).symm ▸ hb⟩, htail.mpr hbs⟩

/-- What was stored is held. -/
theorem holds_storeFrom {bs : List (List UInt8)} {cells : Vector (Cell n) k} {i : Nat}
    (hfit : ∀ b ∈ bs, Fits n b) (hroom : i + bs.length ≤ k) :
    Holds (storeFrom cells i bs) i bs := by
  induction bs generalizing cells i with
  | nil => trivial
  | cons b bs ih =>
    simp only [List.length_cons] at hroom
    have hi : i < k := by omega
    obtain ⟨h256, hn⟩ := hfit b List.mem_cons_self
    rw [storeFrom, dif_pos hi]
    refine ⟨⟨hi, ?_⟩, ih (fun x hx => hfit x (List.mem_cons_of_mem b hx)) (by omega)⟩
    rw [getElem_storeFrom_lt hi (Nat.lt_succ_self i)]
    simpa using Cell.bytes_store (c := cells[i]) h256 hn

/-- Storing changes nothing exactly if the texts are held already. -/
theorem storeFrom_eq_self {bs : List (List UInt8)} {cells : Vector (Cell n) k} {i : Nat}
    (hfit : ∀ b ∈ bs, Fits n b) (hroom : i + bs.length ≤ k) (ht : Terminated cells) :
    storeFrom cells i bs = cells ↔ Holds cells i bs := by
  constructor
  · intro h
    exact h ▸ holds_storeFrom hfit hroom
  · intro h
    induction bs generalizing i with
    | nil => rfl
    | cons b bs ih =>
      simp only [List.length_cons] at hroom
      obtain ⟨⟨hi, hb⟩, hbs⟩ := h
      obtain ⟨h256, hn⟩ := hfit b List.mem_cons_self
      have hself : cells[i].store b = cells[i] := (Cell.store_eq_self h256 hn).mpr ⟨hb, ht i hi⟩
      rw [storeFrom, dif_pos hi, hself, Vector.set_getElem_self]
      exact ih (fun x hx => hfit x (List.mem_cons_of_mem b hx)) (by omega) hbs

theorem holds_getElem {bs : List (List UInt8)} {cells : Vector (Cell n) k} {i j : Nat}
    {b : List UInt8} (h : Holds cells i bs) (hj : bs[j]? = some b) :
    ∃ hk : i + j < k, cells[i + j].bytes = b := by
  induction bs generalizing i j with
  | nil => simp at hj
  | cons x bs ih =>
    cases j with
    | zero =>
      obtain rfl : x = b := by simpa using hj
      exact h.1
    | succ j =>
      obtain ⟨hk, hb⟩ := ih h.2 (by simpa using hj)
      have he : i + 1 + j = i + (j + 1) := by omega
      simp only [he] at hk hb
      exact ⟨hk, hb⟩

end Cells
