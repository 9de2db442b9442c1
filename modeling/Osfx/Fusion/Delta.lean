import Osfx.FusionState

/-!
# The body of a DIFF

What the encoder's slot loop writes (`changedMask`, `changedTexts`) and what the
decoder's slot loop reads (`diffFields`), each without the cells that are stored
on the way. `applySlots_changed` is the mirror image: read against the mask, the
changed texts restore exactly the slots the encoder stored.
-/

namespace Osfx

open Cells

variable {m k : Nat}

/-- One mask bit for each text, from slot `i` on, that its cell does not hold. -/
def changedMask (cells : Vector (Cell m) k) : Nat → List Bytes → Nat
  | _, [] => 0
  | i, b :: bs =>
    (if Holds cells i [b] then 0 else 2 ^ i) ||| changedMask cells (i + 1) bs

/-- The texts their cells do not hold, each behind its length. -/
def changedTexts (cells : Vector (Cell m) k) : Nat → List Bytes → Bytes
  | _, [] => []
  | i, b :: bs =>
    (if Holds cells i [b] then [] else lenU8 b :: b) ++ changedTexts cells (i + 1) bs

/-- The fields a DIFF body has for slots `j`, `j + 1`, ... up to the first that is
malformed, and whether there is none. -/
def diffFields (m mask : Nat) : Nat → Nat → Bytes → List (Nat × Bytes) × Bool
  | 0, _, _ => ([], true)
  | n + 1, j, body =>
    if mask.testBit j then
      match body with
      | [] => ([], false)
      | len :: body =>
        if body.length < len.toNat ∨ m ≤ len.toNat then ([], false)
        else
          let rest := diffFields m mask n (j + 1) (body.drop len.toNat)
          ((j, body.take len.toNat) :: rest.1, rest.2)
    else diffFields m mask n (j + 1) body

/-! ## The encoder's loop -/

theorem differs_iff (cells : Vector (Cell m) k) {i : Nat} {b : Bytes} (hi : i < k)
    (hfit : Fits m b) : cells[i].differs b = true ↔ ¬ Holds cells i [b] := by
  have hb := Cell.differs_eq_false (c := cells[i]) hfit.1 hfit.2
  have hh : Holds cells i [b] ↔ cells[i].bytes = b := by
    constructor
    · rintro ⟨⟨_, h⟩, -⟩
      exact h
    · intro h
      exact ⟨⟨hi, h⟩, trivial⟩
  rw [hh, ← hb, Bool.not_eq_false]

theorem changedMask_congr {bs : List Bytes} {cells cells' : Vector (Cell m) k} {i : Nat}
    (h : ∀ (j : Nat) (_ : j < k), i ≤ j → cells[j] = cells'[j]) :
    changedMask cells i bs = changedMask cells' i bs := by
  induction bs generalizing i with
  | nil => rfl
  | cons b bs ih =>
    have htail := ih (i := i + 1) fun j hj hij => h j hj (by omega)
    simp only [changedMask, htail, holds_congr [b] h]

theorem changedTexts_congr {bs : List Bytes} {cells cells' : Vector (Cell m) k} {i : Nat}
    (h : ∀ (j : Nat) (_ : j < k), i ≤ j → cells[j] = cells'[j]) :
    changedTexts cells i bs = changedTexts cells' i bs := by
  induction bs generalizing i with
  | nil => rfl
  | cons b bs ih =>
    have htail := ih (i := i + 1) fun j hj hij => h j hj (by omega)
    simp only [changedTexts, htail, holds_congr [b] h]

/-- Storing a text a cell holds already leaves the array as it is. -/
theorem set_store_held {cells : Vector (Cell m) k} {i : Nat} {b : Bytes} (hi : i < k)
    (hfit : Fits m b) (ht : Terminated cells) (hh : Holds cells i [b]) :
    cells.set i (cells[i].store b) = cells := by
  obtain ⟨⟨_, hb⟩, -⟩ := hh
  have hself := (Cell.store_eq_self hfit.1 hfit.2).mpr ⟨hb, ht i hi⟩
  rw [hself, Vector.set_getElem_self]

theorem diffSlots_eq {bs : List Bytes} {cells : Vector (Cell m) k} {i : Nat} (mask : Nat)
    (out : Bytes) (hfit : ∀ b ∈ bs, Fits m b) (hroom : i + bs.length ≤ k)
    (ht : Terminated cells) :
    diffSlots cells i bs mask out = some (storeFrom cells i bs,
      mask ||| changedMask cells i bs, out ++ changedTexts cells i bs) := by
  induction bs generalizing cells i mask out with
  | nil => simp [diffSlots, storeFrom, changedMask, changedTexts]
  | cons b bs ih =>
    simp only [List.length_cons] at hroom
    have hi : i < k := by omega
    have hb := hfit b List.mem_cons_self
    have hrest : ∀ x ∈ bs, Fits m x := fun x hx => hfit x (List.mem_cons_of_mem b hx)
    rw [diffSlots, dif_pos hi, storeFrom, dif_pos hi]
    by_cases hh : Holds cells i [b]
    · have hsame : cells[i].differs b = false := by
        simpa using mt (differs_iff cells hi hb).mp (not_not.mpr hh)
      rw [if_neg (by simp [hsame]), ih mask out hrest (by omega) ht, set_store_held hi hb ht hh]
      simp [changedMask, changedTexts, hh]
    · have hdiff := (differs_iff cells hi hb).mpr hh
      have hcell := Cell.terminated_store (c := cells[i]) hb.1 hb.2
      have htail : ∀ (j : Nat) (_ : j < k), i + 1 ≤ j →
          (cells.set i (cells[i].store b))[j] = cells[j] := by
        intro j hj hij
        have hne : i ≠ j := by omega
        simp [hne]
      rw [if_pos hdiff, ih _ _ hrest (by omega) (terminated_set hi hcell ht),
        changedMask_congr htail, changedTexts_congr htail]
      simp [changedMask, changedTexts, hh, lenU8_toNat hb.1, Nat.shiftLeft_eq, Nat.or_assoc]

/-! ## The mask -/

theorem testBit_changedMask_lt {bs : List Bytes} {cells : Vector (Cell m) k} {i j : Nat}
    (h : j < i) : (changedMask cells i bs).testBit j = false := by
  induction bs generalizing i with
  | nil => simp [changedMask]
  | cons b bs ih =>
    have hne : i ≠ j := by omega
    rw [changedMask, Nat.testBit_or, ih (by omega)]
    split <;> simp [hne]

theorem testBit_changedMask_self {bs : List Bytes} {cells : Vector (Cell m) k} {i : Nat}
    {b : Bytes} : (changedMask cells i (b :: bs)).testBit i = true ↔ ¬ Holds cells i [b] := by
  rw [changedMask, Nat.testBit_or, testBit_changedMask_lt (Nat.lt_succ_self i)]
  split
  · rename_i hh
    simp [hh]
  · rename_i hh
    simp [hh, Nat.testBit_two_pow_self]

theorem testBit_changedMask_succ {bs : List Bytes} {cells : Vector (Cell m) k} {i j : Nat}
    {b : Bytes} (h : i < j) : (changedMask cells i (b :: bs)).testBit j =
      (changedMask cells (i + 1) bs).testBit j := by
  have hne : i ≠ j := by omega
  rw [changedMask, Nat.testBit_or]
  split <;> simp [hne]

theorem changedMask_lt (cells : Vector (Cell m) k) (i : Nat) (bs : List Bytes) :
    changedMask cells i bs < 2 ^ (i + bs.length) := by
  induction bs generalizing i with
  | nil => simp [changedMask]
  | cons b bs ih =>
    have he : i + (b :: bs).length = i + 1 + bs.length := by simp only [List.length_cons]; omega
    rw [changedMask, he]
    refine Nat.or_lt_two_pow ?_ (ih (i + 1))
    split
    · exact Nat.two_pow_pos _
    · exact Nat.pow_lt_pow_right (by decide) (by omega)

/-! ## The decoder's loop -/

theorem applySlots_skip {mask n j : Nat} {body : Bytes} {cells : Vector (Cell m) k}
    (h : mask.testBit j = false) :
    applySlots mask (n + 1) j body cells = applySlots mask n (j + 1) body cells := by
  conv_lhs => unfold applySlots
  simp [h]

theorem applySlots_field {mask n j : Nat} {b rest : Bytes} {cells : Vector (Cell m) k}
    (h : mask.testBit j = true) (hj : j < k) (hb : Fits m b) :
    applySlots mask (n + 1) j (lenU8 b :: b ++ rest) cells =
      applySlots mask n (j + 1) rest (cells.set j (cells[j].store b)) := by
  have hlen : (lenU8 b).toNat = b.length := lenU8_toNat hb.1
  have hok : ¬ ((b ++ rest).length < b.length ∨ m ≤ b.length) := by
    have := hb.2
    simp only [List.length_append]
    omega
  conv_lhs => unfold applySlots
  simp only [h, if_true, List.cons_append, hlen, if_neg hok, dif_pos hj, List.take_left,
    List.drop_left]

/-- Read against a mask that marks the changed slots, the changed texts restore
the slots the encoder stored. -/
theorem applySlots_changed {bs : List Bytes} {cells : Vector (Cell m) k} {i : Nat} (mask : Nat)
    (hfit : ∀ b ∈ bs, Fits m b) (hroom : i + bs.length ≤ k) (ht : Terminated cells)
    (hmask : ∀ j, i ≤ j → mask.testBit j = (changedMask cells i bs).testBit j) :
    applySlots mask bs.length i (changedTexts cells i bs) cells =
      some (storeFrom cells i bs, true) := by
  induction bs generalizing cells i with
  | nil => rfl
  | cons b bs ih =>
    simp only [List.length_cons] at hroom
    have hi : i < k := by omega
    have hb := hfit b List.mem_cons_self
    have hrest : ∀ x ∈ bs, Fits m x := fun x hx => hfit x (List.mem_cons_of_mem b hx)
    have hbit := hmask i (Nat.le_refl i)
    have hnext : ∀ j, i + 1 ≤ j → mask.testBit j = (changedMask cells (i + 1) bs).testBit j := by
      intro j hj
      rw [hmask j (by omega), testBit_changedMask_succ (by omega)]
    rw [List.length_cons, storeFrom, dif_pos hi, changedTexts]
    by_cases hh : Holds cells i [b]
    · have hclear : mask.testBit i = false := by
        rw [hbit, ← Bool.not_eq_true, testBit_changedMask_self, not_not]
        exact hh
      rw [if_pos hh, List.nil_append, applySlots_skip hclear, set_store_held hi hb ht hh]
      exact ih hrest (by omega) ht hnext
    · have hset : mask.testBit i = true := hbit.trans (testBit_changedMask_self.mpr hh)
      have hcell := Cell.terminated_store (c := cells[i]) hb.1 hb.2
      have htail : ∀ (j : Nat) (_ : j < k), i + 1 ≤ j →
          cells[j] = (cells.set i (cells[i].store b))[j] := by
        intro j hj hij
        have hne : i ≠ j := by omega
        simp [hne]
      rw [if_neg hh, applySlots_field hset hi hb, changedTexts_congr htail]
      refine ih hrest (by omega) (terminated_set hi hcell ht) fun j hj => ?_
      rw [hnext j hj, changedMask_congr htail]

/-- Store the fields read, each in its slot. -/
def storeFields (cells : Vector (Cell m) k) : List (Nat × Bytes) → Vector (Cell m) k
  | [] => cells
  | (j, b) :: fields =>
    if h : j < k then storeFields (cells.set j (cells[j].store b)) fields else cells

theorem applySlots_eq {n j : Nat} (mask : Nat) (body : Bytes) (cells : Vector (Cell m) k)
    (hroom : j + n ≤ k) : applySlots mask n j body cells =
      some (storeFields cells (diffFields m mask n j body).1, (diffFields m mask n j body).2) := by
  induction n generalizing j body cells with
  | zero => rfl
  | succ n ih =>
    unfold applySlots diffFields
    by_cases hbit : mask.testBit j
    · simp only [if_pos hbit]
      cases body with
      | nil => rfl
      | cons len body =>
        have hj : j < k := by omega
        by_cases hbad : body.length < len.toNat ∨ m ≤ len.toNat
        · simp only [if_pos hbad]
          rfl
        · simp only [if_neg hbad, dif_pos hj, storeFields, ih _ _ (by omega : j + 1 + n ≤ k)]
    · simp only [if_neg hbit]
      exact ih _ _ (by omega)

theorem diffFields_fits (hm : m ≤ 256) {n j mask : Nat} {body : Bytes} :
    ∀ f ∈ (diffFields m mask n j body).1, j ≤ f.1 ∧ f.1 < j + n ∧ Fits m f.2 := by
  induction n generalizing j body with
  | zero => simp [diffFields]
  | succ n ih =>
    unfold diffFields
    intro f hf
    split at hf
    · split at hf
      · simp at hf
      · rename_i len body
        split at hf
        · simp at hf
        · rename_i hbad
          rw [not_or, Nat.not_lt, Nat.not_le] at hbad
          rcases List.mem_cons.mp hf with rfl | hf
          · have hlen : (body.take len.toNat).length = len.toNat := by
              rw [List.length_take]
              omega
            exact ⟨Nat.le_refl j, by omega, by rw [Fits, hlen]; omega⟩
          · obtain ⟨h1, h2, h3⟩ := ih f hf
            exact ⟨by omega, by omega, h3⟩
    · obtain ⟨h1, h2, h3⟩ := ih f hf
      exact ⟨by omega, by omega, h3⟩

/-! ## Fields that change nothing -/

theorem getElem_storeFields_ne {fields : List (Nat × Bytes)} {cells : Vector (Cell m) k} {i : Nat}
    (hi : i < k) (hne : ∀ f ∈ fields, f.1 ≠ i) : (storeFields cells fields)[i] = cells[i] := by
  induction fields generalizing cells with
  | nil => rfl
  | cons f fields ih =>
    obtain ⟨j, b⟩ := f
    rw [storeFields]
    split
    · have hj : j ≠ i := hne (j, b) List.mem_cons_self
      rw [ih fun f hf => hne f (List.mem_cons_of_mem _ hf)]
      simp [hj]
    · rfl

theorem terminated_storeFields {fields : List (Nat × Bytes)} {cells : Vector (Cell m) k}
    (hfit : ∀ f ∈ fields, Fits m f.2) (ht : Terminated cells) :
    Terminated (storeFields cells fields) := by
  induction fields generalizing cells with
  | nil => exact ht
  | cons f fields ih =>
    obtain ⟨j, b⟩ := f
    rw [storeFields]
    split
    · rename_i hj
      obtain ⟨h256, hm⟩ := hfit (j, b) List.mem_cons_self
      have hc := Cell.terminated_store (c := cells[j]) h256 hm
      exact ih (fun f hf => hfit f (List.mem_cons_of_mem _ hf)) (terminated_set hj hc ht)
    · exact ht

/-- A field whose slot holds its text already. -/
def FieldCached (cells : Vector (Cell m) k) (f : Nat × Bytes) : Prop := Holds cells f.1 [f.2]

instance (cells : Vector (Cell m) k) (f : Nat × Bytes) : Decidable (FieldCached cells f) :=
  inferInstanceAs (Decidable (Holds cells f.1 [f.2]))

/-- The fields of a DIFF leave the slots as they are exactly if each of them is
cached: every slot has one field at most, so no later field can undo an earlier. -/
theorem storeFields_diffFields_eq_self (hm : m ≤ 256) {n j mask : Nat} {body : Bytes}
    {cells : Vector (Cell m) k} (hroom : j + n ≤ k) (ht : Terminated cells) :
    storeFields cells (diffFields m mask n j body).1 = cells ↔
      ∀ f ∈ (diffFields m mask n j body).1, FieldCached cells f := by
  induction n generalizing j body with
  | zero => simp [diffFields, storeFields]
  | succ n ih =>
    unfold diffFields
    split
    · split
      · simp [storeFields]
      · rename_i len body
        split
        · simp [storeFields]
        · rename_i hbad
          rw [not_or, Nat.not_lt, Nat.not_le] at hbad
          have hj : j < k := by omega
          have hlen : (body.take len.toNat).length = len.toNat := by
            rw [List.length_take]
            omega
          have hfit : Fits m (body.take len.toNat) := by
            rw [Fits, hlen]
            exact ⟨len.toNat_lt, hbad.2⟩
          have hlater : ∀ f ∈ (diffFields m mask n (j + 1) (body.drop len.toNat)).1, f.1 ≠ j := by
            intro f hf
            have := (diffFields_fits hm f hf).1
            omega
          simp only [storeFields, dif_pos hj, List.forall_mem_cons]
          constructor
          · intro h
            have hhere : (cells.set j (cells[j].store (body.take len.toNat)))[j] = cells[j] := by
              rw [← getElem_storeFields_ne hj hlater, h]
            have hstore : cells[j].store (body.take len.toNat) = cells[j] := by simpa using hhere
            rw [hstore, Vector.set_getElem_self] at h
            have hb := ((Cell.store_eq_self hfit.1 hfit.2).mp hstore).1
            exact ⟨⟨⟨hj, hb⟩, trivial⟩, (ih (by omega)).mp h⟩
          · rintro ⟨hh, hrest⟩
            rw [set_store_held hj hfit ht hh]
            exact (ih (by omega)).mpr hrest
    · exact ih (by omega)

end Osfx
