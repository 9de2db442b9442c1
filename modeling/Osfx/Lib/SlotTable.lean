import Mathlib.Data.Fintype.Card
import Mathlib.Data.List.GetD

/-!
# Fixed tables of slots

A C table is an array of records, some of them in use, searched from slot 0 up.
`findSlot` is that search. For a table whose used slots carry a key, `lookup`
and `vacant` are the two searches every such table has, and `Distinct` says
that no key is used twice:

* `distinct_set_slot`, `distinct_set_unused`, `distinct_map`: the ways slots are written
  keep the keys distinct;
* `entry_set`, `entry_map`: read by key, with `entry`, a table is a map; writing the slot
  of a key updates the map there and nowhere else, and a sweep takes keys out of it;
* `vacant_of_room`: a table with a slot for each key that can occur does not run out;
* `findSlot_usedSlots`: read in order, with `usedSlots`, a table is a list, and a search in
  the one is a search in the other; `usedSlots_modify`, `usedSlots_clear` and
  `usedSlots_append` say what writing a slot does to it.

A table that was filled from slot 0 up is `Packed`; `packed_foldl` says when a loop
fills it so, and `packed_used` what it then holds.
-/

namespace SlotTable

variable {α κ : Type} {n : Nat}

/-- The first slot, from 0 up, that satisfies `p`. -/
def findSlot (t : Vector α n) (p : α → Bool) : Option (Fin n) :=
  (List.finRange n).find? fun i => p (t.get i)

theorem findSlot_eq_some {t : Vector α n} {p : α → Bool} {i : Fin n} :
    findSlot t p = some i ↔ p (t.get i) = true ∧ ∀ j : Fin n, j < i → p (t.get j) = false := by
  unfold findSlot
  rw [List.find?_eq_some_iff_getElem]
  constructor
  · rintro ⟨hp, k, hk, hi, hb⟩
    simp only [List.getElem_finRange] at hi
    subst hi
    refine ⟨hp, fun j hj => ?_⟩
    have hj' : j.val < k := hj
    simpa using hb j.val hj'
  · rintro ⟨hp, hb⟩
    refine ⟨hp, i.val, by simp, by simp, fun j hj => ?_⟩
    have hjn : j < n := by omega
    simpa using hb ⟨j, hjn⟩ hj

theorem findSlot_eq_none {t : Vector α n} {p : α → Bool} :
    findSlot t p = none ↔ ∀ i : Fin n, p (t.get i) = false := by
  simp [findSlot]

theorem findSlot_isSome {t : Vector α n} {p : α → Bool} (i : Fin n) (h : p (t.get i) = true) :
    ∃ j, findSlot t p = some j := by
  cases hf : findSlot t p with
  | some j => exact ⟨j, rfl⟩
  | none => rw [findSlot_eq_none.mp hf i] at h; cases h

theorem get_set_self (t : Vector α n) (i : Fin n) (a : α) : (t.set i a i.isLt).get i = a :=
  Vector.getElem_set_self i.isLt

theorem get_set_ne (t : Vector α n) {i j : Fin n} (a : α) (h : i ≠ j) :
    (t.set i a i.isLt).get j = t.get j :=
  Vector.getElem_set_ne i.isLt j.isLt fun he => h (Fin.ext he)

/-- What holds of the new entry and of the other slots holds of every slot. -/
theorem forall_set {P : Fin n → α → Prop} {t : Vector α n} {i : Fin n} {a : α} (hi : P i a)
    (hothers : ∀ j, i ≠ j → P j (t.get j)) (j : Fin n) : P j ((t.set i a i.isLt).get j) := by
  by_cases hij : i = j
  · subst hij
    rw [get_set_self]
    exact hi
  · rw [get_set_ne t a hij]
    exact hothers j hij

theorem set_get_self (t : Vector α n) (i : Fin n) : t.set i (t.get i) i.isLt = t :=
  Vector.set_getElem_self i.isLt

theorem set_eq_self {t : Vector α n} {i : Fin n} {a : α} : t.set i a i.isLt = t ↔ a = t.get i := by
  constructor
  · intro h
    rw [← get_set_self t i a, h]
  · rintro rfl
    exact set_get_self t i

theorem get_map {β : Type} (t : Vector α n) (f : α → β) (i : Fin n) :
    (t.map f).get i = f (t.get i) :=
  Vector.getElem_map f i.isLt

theorem get_replicate (a : α) (i : Fin n) : (Vector.replicate n a).get i = a :=
  Vector.getElem_replicate i.isLt

section
variable (used : α → Bool) (key : α → κ) [DecidableEq κ]

/-- The first used slot with key `k`. -/
def lookup (t : Vector α n) (k : κ) : Option (Fin n) :=
  findSlot t fun a => used a && decide (key a = k)

/-- The first unused slot. -/
def vacant (t : Vector α n) : Option (Fin n) :=
  findSlot t fun a => !used a

/-- Slot `i` is where key `k` is found, or a free one while it is not found. -/
def SlotOf (t : Vector α n) (k : κ) (i : Fin n) : Prop :=
  lookup used key t k = some i ∨ (lookup used key t k = none ∧ used (t.get i) = false)

/-- No two used slots have the same key. -/
def Distinct (t : Vector α n) : Prop :=
  ∀ i j : Fin n, used (t.get i) = true → used (t.get j) = true →
    key (t.get i) = key (t.get j) → i = j

variable {used key}

theorem lookup_some {t : Vector α n} {k : κ} {i : Fin n} (h : lookup used key t k = some i) :
    used (t.get i) = true ∧ key (t.get i) = k := by
  have := (findSlot_eq_some.mp h).1
  simpa using this

theorem lookup_none {t : Vector α n} {k : κ} :
    lookup used key t k = none ↔ ∀ i : Fin n, used (t.get i) = true → key (t.get i) ≠ k := by
  simp [lookup, findSlot_eq_none]

omit [DecidableEq κ] in
theorem vacant_some {t : Vector α n} {i : Fin n} (h : vacant used t = some i) :
    used (t.get i) = false := by
  have := (findSlot_eq_some.mp h).1
  simpa using this

theorem lookup_eq_some {t : Vector α n} {k : κ} (hd : Distinct used key t) {i : Fin n} :
    lookup used key t k = some i ↔ used (t.get i) = true ∧ key (t.get i) = k := by
  refine ⟨lookup_some, fun h => ?_⟩
  obtain ⟨j, hj⟩ := findSlot_isSome (t := t) (p := fun a => used a && decide (key a = k)) i
    (by simp [h])
  obtain ⟨hu, hk⟩ := lookup_some hj
  have hij : j = i := hd j i hu h.1 (hk.trans h.2.symm)
  exact hij ▸ hj

omit [DecidableEq κ] in
theorem distinct_set_same {t : Vector α n} {i : Fin n} {a : α} (hd : Distinct used key t)
    (hu : used (t.get i) = true) (hk : key a = key (t.get i)) :
    Distinct used key (t.set i a i.isLt) := by
  intro p q hp hq he
  by_cases hip : i = p <;> by_cases hiq : i = q
  · exact hip ▸ hiq
  · subst hip
    rw [get_set_self] at hp he
    rw [get_set_ne t a hiq] at hq he
    exact hd i q hu hq (hk ▸ he)
  · subst hiq
    rw [get_set_self] at hq he
    rw [get_set_ne t a hip] at hp he
    exact hd p i hp hu (hk ▸ he)
  · rw [get_set_ne t a hip] at hp he
    rw [get_set_ne t a hiq] at hq he
    exact hd p q hp hq he

theorem distinct_set_fresh {t : Vector α n} {i : Fin n} {a : α} (hd : Distinct used key t)
    (hk : lookup used key t (key a) = none) : Distinct used key (t.set i a i.isLt) := by
  have fresh := lookup_none.mp hk
  intro p q hp hq he
  by_cases hip : i = p <;> by_cases hiq : i = q
  · exact hip ▸ hiq
  · subst hip
    rw [get_set_self] at he
    rw [get_set_ne t a hiq] at hq he
    exact absurd he.symm (fresh q hq)
  · subst hiq
    rw [get_set_self] at he
    rw [get_set_ne t a hip] at hp he
    exact absurd he (fresh p hp)
  · rw [get_set_ne t a hip] at hp he
    rw [get_set_ne t a hiq] at hq he
    exact hd p q hp hq he

/-- An entry written in the slot of its key keeps the keys distinct. -/
theorem distinct_set_slot {t : Vector α n} {i : Fin n} {a : α} (hd : Distinct used key t)
    (hslot : SlotOf used key t (key a) i) : Distinct used key (t.set i a i.isLt) := by
  rcases hslot with hfound | ⟨hnone, -⟩
  · obtain ⟨hu, hk⟩ := lookup_some hfound
    exact distinct_set_same hd hu hk.symm
  · exact distinct_set_fresh hd hnone

/-- No other used slot has the key. -/
theorem SlotOf.other {t : Vector α n} {k : κ} {i j : Fin n} (hslot : SlotOf used key t k i)
    (hd : Distinct used key t) (hij : i ≠ j) (hu : used (t.get j) = true) : key (t.get j) ≠ k := by
  intro hk
  rcases hslot with hfound | ⟨hnone, -⟩
  · obtain ⟨hused, hkey⟩ := lookup_some hfound
    exact hij (hd i j hused hu (hkey.trans hk.symm))
  · exact lookup_none.mp hnone j hu hk

omit [DecidableEq κ] in
theorem distinct_set_unused {t : Vector α n} {i : Fin n} {a : α} (hd : Distinct used key t)
    (hu : used a = false) : Distinct used key (t.set i a i.isLt) := by
  intro p q hp hq he
  by_cases hip : i = p
  · subst hip; simp [get_set_self, hu] at hp
  · by_cases hiq : i = q
    · subst hiq; simp [get_set_self, hu] at hq
    · rw [get_set_ne t a hip] at hp he
      rw [get_set_ne t a hiq] at hq he
      exact hd p q hp hq he

omit [DecidableEq κ] in
/-- A sweep that keeps or empties each slot keeps the keys distinct. -/
theorem distinct_map {t : Vector α n} {f : α → α} (hd : Distinct used key t)
    (hf : ∀ a, used (f a) = true → f a = a) : Distinct used key (t.map f) := by
  intro p q hp hq he
  simp only [get_map] at hp hq he
  have hkp := hf _ hp
  have hkq := hf _ hq
  rw [hkp] at hp he
  rw [hkq] at hq he
  exact hd p q hp hq he

omit [DecidableEq κ] in
theorem distinct_replicate {a : α} (hu : used a = false) :
    Distinct used key (Vector.replicate n a) := by
  intro p q hp
  rw [get_replicate, hu] at hp
  cases hp

omit [DecidableEq κ] in
/-- Listed in the order of their slots, the keys of the used slots do not repeat. -/
theorem Distinct.nodup_keys {t : Vector α n} (hd : Distinct used key t) :
    ((t.toList.filter used).map key).Nodup := by
  have hpair : (t.toList.filter used).Pairwise fun a b => key a ≠ key b := by
    rw [List.pairwise_filter, List.pairwise_iff_getElem]
    intro i j hi hj hij hui huj he
    simp only [Vector.length_toList] at hi hj
    simp only [Vector.getElem_toList] at hui huj he
    have := hd ⟨i, hi⟩ ⟨j, hj⟩ hui huj he
    simp only [Fin.mk.injEq] at this
    omega
  exact List.pairwise_map.mpr hpair

/-! ## A table as a map -/

variable (used key)

/-- The entry found under a key. -/
def entry (t : Vector α n) (k : κ) : Option α := (lookup used key t k).map fun i => t.get i

variable {used key}

omit [DecidableEq κ] in
theorem findSlot_congr {t t' : Vector α n} {p : α → Bool}
    (h : ∀ i : Fin n, p (t.get i) = p (t'.get i)) : findSlot t p = findSlot t' p := by
  unfold findSlot
  congr 1
  funext i
  exact h i

theorem lookup_set_self {t : Vector α n} {i : Fin n} {a : α} (h : SlotOf used key t (key a) i)
    (hu : used a = true) : lookup used key (t.set i a i.isLt) (key a) = some i := by
  have before : ∀ j : Fin n, j < i →
      (used (t.get j) && decide (key (t.get j) = key a)) = false := by
    rcases h with h | ⟨h, -⟩
    · exact (findSlot_eq_some.mp h).2
    · exact fun j _ => findSlot_eq_none.mp h j
  refine findSlot_eq_some.mpr ⟨?_, fun j hj => ?_⟩
  · rw [get_set_self]
    simp [hu]
  · rw [get_set_ne t a (Fin.ne_of_gt hj)]
    exact before j hj

theorem lookup_set_other {t : Vector α n} {i : Fin n} {a : α} {k : κ}
    (h : SlotOf used key t (key a) i) (hk : k ≠ key a) :
    lookup used key (t.set i a i.isLt) k = lookup used key t k := by
  refine findSlot_congr fun j => ?_
  by_cases hij : i = j
  · subst hij
    have hold : (used (t.get i) && decide (key (t.get i) = k)) = false := by
      rcases h with h | ⟨-, h⟩
      · have hki := (lookup_some h).2
        simp [hki, Ne.symm hk]
      · simp [h]
    rw [get_set_self, hold]
    simp [Ne.symm hk]
  · rw [get_set_ne t a hij]

/-- Writing an entry in the slot of its key updates the map at that key. -/
theorem entry_set {t : Vector α n} {i : Fin n} {a : α} (h : SlotOf used key t (key a) i)
    (hu : used a = true) (k : κ) :
    entry used key (t.set i a i.isLt) k = if k = key a then some a else entry used key t k := by
  unfold entry
  by_cases hk : k = key a
  · subst hk
    rw [lookup_set_self h hu, if_pos rfl, Option.map_some, get_set_self]
  · rw [lookup_set_other h hk, if_neg hk]
    cases hl : lookup used key t k with
    | none => rfl
    | some j =>
      have hne : i ≠ j := by
        rintro rfl
        obtain ⟨hj, hkj⟩ := lookup_some hl
        rcases h with h | ⟨-, h⟩
        · exact hk (hkj.symm.trans (lookup_some h).2)
        · rw [h] at hj
          cases hj
      rw [Option.map_some, Option.map_some, get_set_ne t a hne]

theorem entry_some {t : Vector α n} {k : κ} {a : α} (h : entry used key t k = some a) :
    ∃ i : Fin n, lookup used key t k = some i ∧ t.get i = a := by
  simpa [entry] using h

/-- A sweep that empties some slots takes their entries out of the map. -/
theorem entry_map {t : Vector α n} {f : α → α} (hd : Distinct used key t)
    (hf : ∀ a, used (f a) = true → f a = a) (k : κ) :
    entry used key (t.map f) k = (entry used key t k).filter fun a => used (f a) := by
  have hgone : ∀ i : Fin n, used (f (t.get i)) = true → key (f (t.get i)) = k →
      lookup used key t k = some i := by
    intro i hu hk
    have hsame := hf _ hu
    rw [hsame] at hu hk
    exact (lookup_eq_some hd).mpr ⟨hu, hk⟩
  cases hl : lookup used key t k with
  | none =>
    have hnone : lookup used key (t.map f) k = none := by
      apply lookup_none.mpr
      intro i hu hk
      rw [get_map] at hu hk
      rw [hgone i hu hk] at hl
      cases hl
    simp only [entry, hl, hnone, Option.map_none, Option.filter_none]
  | some i =>
    obtain ⟨-, hk⟩ := lookup_some hl
    cases hkept : used (f (t.get i)) with
    | true =>
      have hsame := hf _ hkept
      have hsome : lookup used key (t.map f) k = some i := by
        apply (lookup_eq_some (distinct_map hd hf)).mpr
        rw [get_map]
        exact ⟨hkept, hsame.symm ▸ hk⟩
      rw [entry, entry, hsome, hl, Option.map_some, Option.map_some, Option.filter_some,
        if_pos hkept, get_map, hsame]
    | false =>
      have hnone : lookup used key (t.map f) k = none := by
        apply lookup_none.mpr
        intro j hu hk
        rw [get_map] at hu hk
        rw [hgone j hu hk] at hl
        cases hl
        rw [hkept] at hu
        cases hu
      rw [entry, entry, hnone, hl, Option.map_some, Option.map_none, Option.filter_some,
        if_neg (Bool.eq_false_iff.mp hkept)]

omit [DecidableEq κ] in
theorem vacant_none {t : Vector α n} :
    vacant used t = none ↔ ∀ i : Fin n, used (t.get i) = true := by
  simp [vacant, findSlot_eq_none]

/-- Where all keys are members of a set no larger than the table, a member that is not found
finds a free slot. -/
theorem vacant_of_room {t : Vector α n} {ks : Finset κ} {k : κ} (hd : Distinct used key t)
    (hkeys : ∀ i : Fin n, used (t.get i) = true → key (t.get i) ∈ ks) (hroom : ks.card ≤ n)
    (hk : k ∈ ks) (hnone : lookup used key t k = none) : ∃ i, vacant used t = some i := by
  apply Option.ne_none_iff_exists'.mp
  intro hfull
  have hused := vacant_none.mp hfull
  have hothers : ∀ i ∈ (Finset.univ : Finset (Fin n)), key (t.get i) ∈ ks.erase k := fun i _ =>
    Finset.mem_erase.mpr ⟨lookup_none.mp hnone i (hused i), hkeys i (hused i)⟩
  have hle : (Finset.univ : Finset (Fin n)).card ≤ (ks.erase k).card :=
    Finset.card_le_card_of_injOn _ hothers fun i _ j _ he => hd i j (hused i) (hused j) he
  rw [Finset.card_univ, Fintype.card_fin] at hle
  have hlt := Finset.card_erase_lt_of_mem hk
  omega

/-! ## The used slots in order -/

/-- The used slots, in the order a search meets them. -/
def usedSlots (used : α → Bool) (t : Vector α n) : List α := t.toList.filter used

omit [DecidableEq κ] in
theorem toList_eq_map (t : Vector α n) : t.toList = (List.finRange n).map fun i => t.get i := by
  apply List.ext_getElem
  · simp
  · intro i hi hi'
    simp [Vector.get]

omit [DecidableEq κ] in
theorem usedSlots_eq (t : Vector α n) :
    usedSlots used t = ((List.finRange n).map fun i => t.get i).filter used := by
  rw [usedSlots, toList_eq_map]

omit [DecidableEq κ] in
/-- Tables whose used slots have no key twice have distinct keys. -/
theorem distinct_of_nodup {t : Vector α n} (h : ((usedSlots used t).map key).Nodup) :
    Distinct used key t := by
  rw [usedSlots_eq, List.filter_map, List.map_map] at h
  intro i j hi hj hkey
  exact List.inj_on_of_nodup_map h (List.mem_filter.mpr ⟨List.mem_finRange i, hi⟩)
    (List.mem_filter.mpr ⟨List.mem_finRange j, hj⟩) hkey

omit [DecidableEq κ] in
/-- A search among the used slots is one in their list. -/
theorem findSlot_usedSlots (used : α → Bool) (t : Vector α n) (p : α → Bool) :
    (findSlot t fun a => used a && p a).map t.get = (usedSlots used t).find? p := by
  rw [usedSlots_eq, findSlot, List.find?_filter, List.find?_map]
  congr 2
  funext i
  simp

/-- An entry is the first of its key among the used ones. -/
theorem entry_eq_find (t : Vector α n) (k : κ) :
    entry used key t k = (t.toList.filter used).find? fun a => decide (key a = k) :=
  findSlot_usedSlots used t fun a => decide (key a = k)

theorem lookup_isSome {t : Vector α n} {k : κ} :
    (lookup used key t k).isSome = true ↔ ∃ a ∈ usedSlots used t, key a = k := by
  have hfind := findSlot_usedSlots used t fun a => decide (key a = k)
  rw [lookup, ← Option.isSome_map (f := t.get), hfind, List.find?_isSome]
  simp

/-- Changing the entry of a key in its slot changes it in its place in the list. -/
theorem usedSlots_modify {t : Vector α n} {i : Fin n} (f : α → α) (hd : Distinct used key t)
    (hi : used (t.get i) = true) (hu : used (f (t.get i)) = true) :
    usedSlots used (t.set i (f (t.get i)) i.isLt) =
      (usedSlots used t).map fun b => if key b = key (t.get i) then f b else b := by
  rw [usedSlots_eq, usedSlots_eq]
  induction List.finRange n with
  | nil => rfl
  | cons j slots ih =>
    rw [List.map_cons, List.map_cons]
    by_cases hij : i = j
    · subst hij
      rw [get_set_self, List.filter_cons_of_pos hu, List.filter_cons_of_pos hi, List.map_cons, ih,
        if_pos rfl]
    · rw [get_set_ne t _ hij]
      cases hj : used (t.get j) with
      | false =>
        rw [List.filter_cons_of_neg (by simp [hj]), List.filter_cons_of_neg (by simp [hj]), ih]
      | true =>
        have hne : key (t.get j) ≠ key (t.get i) := fun he => hij (hd i j hi hj he.symm)
        rw [List.filter_cons_of_pos hj, List.filter_cons_of_pos hj, List.map_cons, ih, if_neg hne]

/-- Emptying the slot of a key takes it out of the list. -/
theorem usedSlots_clear {t : Vector α n} {i : Fin n} {a : α} (hd : Distinct used key t)
    (hi : used (t.get i) = true) (hu : used a = false) :
    usedSlots used (t.set i a i.isLt) =
      (usedSlots used t).filter fun b => decide (key b ≠ key (t.get i)) := by
  rw [usedSlots_eq, usedSlots_eq]
  induction List.finRange n with
  | nil => rfl
  | cons j slots ih =>
    rw [List.map_cons, List.map_cons]
    by_cases hij : i = j
    · subst hij
      rw [get_set_self, List.filter_cons_of_neg (by simp [hu]), List.filter_cons_of_pos hi, ih,
        List.filter_cons_of_neg (by simp)]
    · rw [get_set_ne t a hij]
      cases hj : used (t.get j) with
      | false =>
        rw [List.filter_cons_of_neg (by simp [hj]), List.filter_cons_of_neg (by simp [hj]), ih]
      | true =>
        have hne : key (t.get j) ≠ key (t.get i) := fun he => hij (hd i j hi hj he.symm)
        rw [List.filter_cons_of_pos hj, List.filter_cons_of_pos hj, ih,
          List.filter_cons_of_pos (by simp [hne])]

omit [DecidableEq κ] in
/-- A slot taken behind all used ones comes last. -/
theorem usedSlots_append {t : Vector α n} {i : Fin n} {a : α} (hu : used a = true)
    (hbehind : ∀ j : Fin n, used (t.get j) = true → j < i) :
    usedSlots used (t.set i a i.isLt) = usedSlots used t ++ [a] := by
  have hi : i.val < t.toList.length := by simp
  have hfree : ∀ b ∈ t.toList.drop i, ¬ used b = true := by
    intro b hb hub
    obtain ⟨k, hk, rfl⟩ := List.mem_iff_getElem.mp hb
    rw [List.length_drop, Vector.length_toList] at hk
    rw [List.getElem_drop, Vector.getElem_toList] at hub
    have hlt : i.val + k < i.val := hbehind ⟨i + k, by omega⟩ hub
    omega
  have hdrop : (t.toList.drop i).filter used = [] := List.filter_eq_nil_iff.mpr hfree
  have hnext : (t.toList.drop (i + 1)).filter used = [] := by
    rw [List.drop_eq_getElem_cons hi] at hfree
    exact List.filter_eq_nil_iff.mpr fun b hb => hfree b (List.mem_cons_of_mem _ hb)
  calc usedSlots used (t.set i a i.isLt)
      = (t.toList.take i ++ a :: t.toList.drop (i + 1)).filter used := by
        rw [usedSlots, Vector.toList_set, List.set_eq_take_append_cons_drop, if_pos hi]
    _ = (t.toList.take i).filter used ++ [a] := by
        rw [List.filter_append, List.filter_cons_of_pos hu, hnext]
    _ = usedSlots used t ++ [a] := by
        conv_rhs => rw [usedSlots, ← List.take_append_drop i t.toList, List.filter_append, hdrop,
          List.append_nil]

/-! ## Packed tables -/

/-- The first slots hold the members of a list, and the others `z`. -/
def Packed (t : Vector α n) (z : α) (l : List α) : Prop := ∀ i : Fin n, t.get i = l.getD i z

theorem packed_replicate (z : α) : Packed (Vector.replicate n z) z [] :=
  fun i => get_replicate z i

omit [DecidableEq κ] in
/-- A fold that puts each member of a list behind the ones before it. -/
theorem packed_foldl {σ : Type} {table : σ → Vector α n} {step : σ → α → σ} {z : α}
    {all : List α}
    (hstep : ∀ s l a rest, l ++ a :: rest = all → Packed (table s) z l →
      Packed (table (step s a)) z (l ++ [a]))
    {s : σ} (h : Packed (table s) z []) : Packed (table (all.foldl step s)) z all := by
  have hrest : ∀ rest l, l ++ rest = all → ∀ s, Packed (table s) z l →
      Packed (table (rest.foldl step s)) z all := by
    intro rest
    induction rest with
    | nil =>
      intro l hl s hs
      rw [← hl, List.append_nil]
      exact hs
    | cons a rest ih =>
      intro l hl s hs
      have hnext := hstep s l a rest hl hs
      rw [List.append_cons] at hl
      exact ih (l ++ [a]) hl (step s a) hnext
  exact hrest all [] rfl s h

section
variable {t : Vector α n} {z : α} {l : List α} (h : Packed t z l)
include h

omit [DecidableEq κ] in
/-- Of a packed table the slot behind the list is the first free one. -/
theorem packed_vacant (hz : used z = false) (hl : ∀ a ∈ l, used a = true) (hroom : l.length < n) :
    vacant used t = some ⟨l.length, hroom⟩ := by
  apply findSlot_eq_some.mpr
  constructor
  · rw [h, List.getD_eq_default _ _ (Nat.le_refl _), hz]
    rfl
  · intro i hi
    have hlt : i.val < l.length := hi
    rw [h, List.getD_eq_getElem _ _ hlt, hl _ (List.getElem_mem hlt)]
    rfl

theorem packed_lookup_none (hz : used z = false) {k : κ} (hk : ∀ a ∈ l, key a ≠ k) :
    lookup used key t k = none := by
  apply lookup_none.mpr
  intro i hu
  rw [h] at hu ⊢
  by_cases hlt : i.val < l.length
  · rw [List.getD_eq_getElem _ _ hlt]
    exact hk _ (List.getElem_mem hlt)
  · rw [List.getD_eq_default _ _ (Nat.not_lt.mp hlt), hz] at hu
    cases hu

omit [DecidableEq κ] in
theorem packed_set (hroom : l.length < n) (a : α) :
    Packed (t.set l.length a hroom) z (l ++ [a]) := by
  intro i
  by_cases hi : (⟨l.length, hroom⟩ : Fin n) = i
  · have hnew : (t.set l.length a hroom).get i = a := by
      rw [← hi]
      exact get_set_self t ⟨l.length, hroom⟩ a
    rw [hnew, ← hi, List.getD_append_right _ _ _ _ (Nat.le_refl _), Nat.sub_self,
      List.getD_cons_zero]
  · have hold : (t.set l.length a hroom).get i = t.get i := get_set_ne t a hi
    have hne : i.val ≠ l.length := fun he => hi (Fin.ext he.symm)
    rw [hold, h i]
    by_cases hlt : i.val < l.length
    · rw [List.getD_append _ _ _ _ hlt]
    · rw [List.getD_eq_default _ _ (by omega), List.getD_eq_default _ _ (by simp; omega)]

omit [DecidableEq κ] in
/-- The used slots hold the list. -/
theorem packed_used (hz : used z = false) (hl : ∀ a ∈ l, used a = true) (hroom : l.length ≤ n) :
    t.toList.filter used = l := by
  have hlist : t.toList = l ++ List.replicate (n - l.length) z := by
    apply List.ext_getElem
    · simp
      omega
    · intro i hi hi'
      have hin : i < n := by simpa using hi
      have hslot : t.toList[i] = l.getD i z := h ⟨i, hin⟩
      rw [hslot]
      by_cases hlt : i < l.length
      · rw [List.getD_eq_getElem _ _ hlt, List.getElem_append_left hlt]
      · rw [List.getD_eq_default _ _ (by omega), List.getElem_append_right (by omega),
          List.getElem_replicate]
  rw [hlist, List.filter_append, List.filter_eq_self.mpr hl, List.filter_replicate, hz,
    if_neg (by decide), List.append_nil]

end

end

end SlotTable
