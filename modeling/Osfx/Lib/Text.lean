/-!
# Cutting strings at separators

`cutFirst` is the search for the first separator, `cutLast` for the last one;
each gives the text on both sides. Both are characterised by the text they cut
(`cutFirst_eq_some`, `cutLast_eq_some`), so a cut is undone by joining the sides
with the separator, and a joined text whose side avoids the separator is cut
where it was joined. `ended` closes each of several pieces with a separator;
`splitOn_ended` takes such a text apart again, and no piece of a text that is split has the
separator (`not_mem_of_mem_splitOn`).
-/

namespace Text

variable {α : Type} [DecidableEq α]

/-- The text before and after the first `c`. -/
def cutFirst (c : α) : List α → Option (List α × List α)
  | [] => none
  | x :: xs => if x = c then some ([], xs) else (cutFirst c xs).map fun s => (x :: s.1, s.2)

/-- The text before and after the last `c`. -/
def cutLast (c : α) : List α → Option (List α × List α)
  | [] => none
  | x :: xs =>
    match cutLast c xs with
    | some s => some (x :: s.1, s.2)
    | none => if x = c then some ([], xs) else none

theorem cutFirst_eq_none {c : α} {l : List α} : cutFirst c l = none ↔ c ∉ l := by
  induction l with
  | nil => simp [cutFirst]
  | cons x xs ih =>
    unfold cutFirst
    split
    · simp_all
    · rename_i hx
      simp [ih, Ne.symm hx]

theorem cutFirst_eq_some {c : α} {l a b : List α} :
    cutFirst c l = some (a, b) ↔ l = a ++ c :: b ∧ c ∉ a := by
  induction l generalizing a with
  | nil => simp [cutFirst]
  | cons x xs ih =>
    unfold cutFirst
    split
    · rename_i hx
      subst hx
      cases a with
      | nil => simp [eq_comm]
      | cons y ys => simp; rintro rfl; simp
    · rename_i hx
      cases a with
      | nil => simp [hx]
      | cons y ys =>
        simp only [Option.map_eq_some_iff, Prod.exists, Prod.mk.injEq, List.cons.injEq,
          List.cons_append, List.mem_cons, not_or]
        constructor
        · rintro ⟨p, q, h, ⟨rfl, rfl⟩, rfl⟩
          exact ⟨⟨rfl, (ih.mp h).1⟩, Ne.symm hx, (ih.mp h).2⟩
        · rintro ⟨⟨rfl, h⟩, -, hc⟩
          exact ⟨ys, b, ih.mpr ⟨h, hc⟩, ⟨rfl, rfl⟩, rfl⟩

/-- A joined text is cut where it was joined. -/
theorem cutFirst_append {c : α} {a : List α} (h : c ∉ a) (b : List α) :
    cutFirst c (a ++ c :: b) = some (a, b) :=
  cutFirst_eq_some.mpr ⟨rfl, h⟩

theorem cutLast_eq_none {c : α} {l : List α} : cutLast c l = none ↔ c ∉ l := by
  induction l with
  | nil => simp [cutLast]
  | cons x xs ih =>
    unfold cutLast
    cases h : cutLast c xs with
    | some s =>
      have hm : c ∈ xs := by
        refine Classical.byContradiction fun hn => ?_
        rw [ih.mpr hn] at h; cases h
      simp [hm]
    | none =>
      have hm : c ∉ xs := ih.mp h
      by_cases hx : x = c
      · simp [hx]
      · simp [hx, hm, Ne.symm hx]

theorem cutLast_eq_some {c : α} {l a b : List α} :
    cutLast c l = some (a, b) ↔ l = a ++ c :: b ∧ c ∉ b := by
  induction l generalizing a with
  | nil => simp [cutLast]
  | cons x xs ih =>
    unfold cutLast
    cases h : cutLast c xs with
    | some s =>
      obtain ⟨p, q⟩ := s
      simp only [Option.some.injEq, Prod.mk.injEq]
      constructor
      · rintro ⟨rfl, rfl⟩
        obtain ⟨hs, hc⟩ := ih.mp h
        exact ⟨by rw [hs]; rfl, hc⟩
      · rintro ⟨he, hb⟩
        cases a with
        | nil =>
          obtain ⟨rfl, rfl⟩ : x = c ∧ xs = b := by simpa using he
          rw [cutLast_eq_none.mpr hb] at h; cases h
        | cons y ys =>
          obtain ⟨rfl, hxs⟩ : x = y ∧ xs = ys ++ c :: b := by simpa using he
          have := h.symm.trans (ih.mpr ⟨hxs, hb⟩)
          simp_all
    | none =>
      have hm : c ∉ xs := cutLast_eq_none.mp h
      by_cases hx : x = c
      · subst hx
        cases a with
        | nil => simp; rintro rfl; exact hm
        | cons y ys =>
          simp only [if_true, Option.some.injEq, Prod.mk.injEq, List.cons_append, List.cons.injEq,
            false_and, reduceCtorEq, false_iff, not_and, and_imp]
          rintro rfl rfl
          simp at hm
      · simp only [hx, if_false, reduceCtorEq, false_iff, not_and]
        intro he
        cases a with
        | nil => simp [hx] at he
        | cons y ys =>
          obtain ⟨rfl, rfl⟩ : x = y ∧ xs = ys ++ c :: b := by simpa using he
          simp at hm

/-- Each piece followed by the separator. -/
def ended (c : α) : List (List α) → List α
  | [] => []
  | p :: ps => p ++ c :: ended c ps

omit [DecidableEq α] in
theorem not_mem_ended {c d : α} (hd : d ≠ c) {ps : List (List α)} (hp : ∀ p ∈ ps, d ∉ p) :
    d ∉ ended c ps := by
  induction ps with
  | nil => exact List.not_mem_nil
  | cons p ps ih =>
    have hrest := ih fun q hq => hp q (List.mem_cons_of_mem p hq)
    simp only [ended, List.mem_append, List.mem_cons, not_or]
    exact ⟨hp p List.mem_cons_self, hd, hrest⟩

/-- Pieces that avoid the separator, and a rest, are recovered by splitting. -/
theorem splitOn_ended {c : α} {ps : List (List α)} (hp : ∀ p ∈ ps, c ∉ p) (rest : List α) :
    (ended c ps ++ rest).splitOn c = ps ++ rest.splitOn c := by
  induction ps with
  | nil => rfl
  | cons p ps ih =>
    rw [ended, List.append_assoc, List.cons_append,
      List.splitOn_append_cons_self_of_not_mem (hp p List.mem_cons_self),
      ih fun q hq => hp q (List.mem_cons_of_mem p hq), List.cons_append]

/-- Pieces that are closed, and a rest without the separator, are what splitting gives. -/
theorem splitOn_ended_rest {c : α} {ps : List (List α)} (hp : ∀ p ∈ ps, c ∉ p) {rest : List α}
    (hrest : c ∉ rest) : (ended c ps ++ rest).splitOn c = ps ++ [rest] := by
  rw [splitOn_ended hp, List.splitOn_eq_singleton hrest]

/-- Behind the last separator there is one more piece, an empty one. -/
theorem splitOn_closed {c : α} {ps : List (List α)} (hp : ∀ p ∈ ps, c ∉ p) :
    (ended c ps).splitOn c = ps ++ [[]] := by
  have hsplit := splitOn_ended_rest hp (List.not_mem_nil (a := c))
  rwa [List.append_nil] at hsplit

omit [DecidableEq α] in
theorem mem_ended {c b : α} {p : List α} {ps : List (List α)} (hp : p ∈ ps) (hb : b ∈ p) :
    b ∈ ended c ps := by
  induction ps with
  | nil => cases hp
  | cons q ps ih =>
    rw [ended, List.mem_append, List.mem_cons]
    obtain rfl | hp := List.mem_cons.mp hp
    · exact Or.inl hb
    · exact Or.inr (Or.inr (ih hp))

/-- Any text is pieces that are closed and a rest that is not. -/
theorem exists_ended (c : α) (l : List α) :
    ∃ ps rest, l = ended c ps ++ rest ∧ (∀ p ∈ ps, c ∉ p) ∧ c ∉ rest := by
  induction l with
  | nil => exact ⟨[], [], rfl, fun _ hp => absurd hp List.not_mem_nil, List.not_mem_nil⟩
  | cons x l ih =>
    obtain ⟨ps, rest, rfl, hps, hrest⟩ := ih
    by_cases hx : x = c
    · subst hx
      refine ⟨[] :: ps, rest, rfl, fun p hp => ?_, hrest⟩
      obtain rfl | hp := List.mem_cons.mp hp
      · exact List.not_mem_nil
      · exact hps p hp
    · cases ps with
      | nil =>
        refine ⟨[], x :: rest, rfl, hps, fun h => ?_⟩
        exact (List.mem_cons.mp h).elim (Ne.symm hx) hrest
      | cons p ps =>
        refine ⟨(x :: p) :: ps, rest, rfl, fun q hq => ?_, hrest⟩
        obtain rfl | hq := List.mem_cons.mp hq
        · intro h
          exact (List.mem_cons.mp h).elim (Ne.symm hx) (hps p List.mem_cons_self)
        · exact hps q (List.mem_cons_of_mem p hq)

/-- No piece of a split contains the separator. -/
theorem not_mem_of_mem_splitOn {c : α} {l p : List α} (h : p ∈ l.splitOn c) : c ∉ p := by
  obtain ⟨ps, rest, rfl, hps, hrest⟩ := exists_ended c l
  rw [splitOn_ended_rest hps hrest, List.mem_append, List.mem_singleton] at h
  obtain h | rfl := h
  · exact hps p h
  · exact hrest

omit [DecidableEq α] in
/-- The rest of a text is empty exactly if the text ends with the separator. -/
theorem getLast?_ended {c : α} (front : List α) (ps : List (List α)) {rest : List α}
    (hrest : c ∉ rest) :
    (front ++ c :: (ended c ps ++ rest)).getLast? = some c ↔ rest = [] := by
  have hclosed : ∀ front : List α, (front ++ c :: ended c ps).getLast? = some c := by
    induction ps with
    | nil => simp [ended]
    | cons p ps ih =>
      intro front
      have h := ih (front ++ c :: p)
      rwa [List.append_assoc, List.cons_append] at h
  constructor
  · intro hlast
    rcases List.eq_nil_or_concat rest with rfl | ⟨init, b, rfl⟩
    · rfl
    · have hsplit : front ++ c :: (ended c ps ++ (init ++ [b])) =
          (front ++ c :: (ended c ps ++ init)) ++ [b] := by simp
      rw [List.concat_eq_append, hsplit, List.getLast?_concat] at hlast
      cases hlast
      exact absurd (by simp) hrest
  · rintro rfl
    rw [List.append_nil]
    exact hclosed front

end Text
