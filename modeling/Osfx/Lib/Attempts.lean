/-!
# Attempts until the first success

A plan of attempts is carried out one by one until one succeeds. What comes of an attempt
is not up to the plan: `outcomes k` is the outcome of the `k`-th attempt made. `attempt`
gives whether one succeeded and the attempts made, behind those made before.

* `attempt_append`: a plan can be carried out piece by piece;
* `attempt_prefix`, `attempt_all`: what was made is the beginning of the plan, and all of
  it if nothing succeeded;
* `attempt_success`, `attempt_stops`: there was a success exactly if some attempt made
  succeeded, and it was the last one.

`perform` carries a plan out on a state the attempts change: `perform_true` and
`perform_false` say that all attempts in front of the first success have failed, and
`attempt_performed` and `attempt_failing` that it is an `attempt` with the outcomes it meets.
-/

namespace Attempts

section
variable {α : Type} (outcomes : Nat → Bool)

def attempt : List α → List α → Bool × List α
  | [], made => (false, made)
  | a :: plan, made =>
    if outcomes made.length then (true, made ++ [a]) else attempt plan (made ++ [a])

@[simp] theorem attempt_nil (made : List α) : attempt outcomes [] made = (false, made) := rfl

theorem attempt_append (plan rest made : List α) : attempt outcomes (plan ++ rest) made =
    if (attempt outcomes plan made).1 then attempt outcomes plan made
    else attempt outcomes rest (attempt outcomes plan made).2 := by
  induction plan generalizing made with
  | nil => rfl
  | cons a plan ih =>
    rw [List.cons_append, attempt, attempt]
    split
    · rfl
    · exact ih (made ++ [a])

/-- The attempts made are the earlier ones and the beginning of the plan. -/
theorem attempt_prefix (plan made : List α) :
    ∃ done rest, plan = done ++ rest ∧ (attempt outcomes plan made).2 = made ++ done := by
  induction plan generalizing made with
  | nil => exact ⟨[], [], rfl, by simp⟩
  | cons a plan ih =>
    rw [attempt]
    split
    · exact ⟨[a], plan, rfl, rfl⟩
    · obtain ⟨done, rest, hplan, hmade⟩ := ih (made ++ [a])
      exact ⟨a :: done, rest, by rw [hplan]; rfl, by rw [hmade]; simp⟩

theorem attempt_all {plan made : List α} (h : (attempt outcomes plan made).1 = false) :
    (attempt outcomes plan made).2 = made ++ plan := by
  induction plan generalizing made with
  | nil => simp
  | cons a plan ih =>
    rw [attempt] at h ⊢
    split at h
    · cases h
    · rename_i hfail
      rw [if_neg hfail, ih h]
      simp

/-- A failed attempt is never made after a success: all but the last have failed. -/
theorem attempt_stops (plan made : List α) {k : Nat} (hk : made.length ≤ k)
    (hlast : k + 1 < (attempt outcomes plan made).2.length) : outcomes k = false := by
  induction plan generalizing made with
  | nil =>
    rw [attempt_nil] at hlast
    have : k + 1 < made.length := hlast
    omega
  | cons a plan ih =>
    rw [attempt] at hlast
    split at hlast
    · simp only [List.length_append, List.length_singleton] at hlast
      omega
    · rename_i hfail
      by_cases hhere : k = made.length
      · rw [hhere]
        simpa using hfail
      · refine ih (made ++ [a]) ?_ hlast
        simp only [List.length_append, List.length_singleton]
        omega

theorem attempt_success (plan made : List α) : (attempt outcomes plan made).1 = true ↔
    ∃ k, made.length ≤ k ∧ k < (attempt outcomes plan made).2.length ∧ outcomes k = true := by
  induction plan generalizing made with
  | nil =>
    rw [attempt_nil]
    constructor
    · intro h
      cases h
    · rintro ⟨k, h1, h2, -⟩
      have : k < made.length := h2
      omega
  | cons a plan ih =>
    rw [attempt]
    split
    · rename_i hgood
      refine ⟨fun _ => ⟨made.length, Nat.le_refl _, by simp, hgood⟩, fun _ => rfl⟩
    · rename_i hfail
      rw [ih (made ++ [a])]
      constructor
      · rintro ⟨k, h1, h2, h3⟩
        refine ⟨k, ?_, h2, h3⟩
        simp only [List.length_append, List.length_singleton] at h1
        omega
      · rintro ⟨k, h1, h2, h3⟩
        refine ⟨k, ?_, h2, h3⟩
        have hne : k ≠ made.length := fun he => hfail (he ▸ h3)
        simp only [List.length_append, List.length_singleton]
        omega

end

section
variable {α S : Type} (act : α → S → Bool × S)

def perform : List α → S → Bool × S
  | [], s => (false, s)
  | a :: plan, s =>
    match act a s with
    | (true, t) => (true, t)
    | (false, t) => perform plan t

/-- Every attempt of a plan fails, and takes the state along. -/
inductive Failing : List α → S → S → Prop
  | nil {s} : Failing [] s s
  | cons {a plan s t u} : act a s = (false, t) → Failing plan t u → Failing (a :: plan) s u

variable {act}

theorem Failing.append {plan rest : List α} {s t u : S} (h : Failing act plan s t)
    (h' : Failing act rest t u) : Failing act (plan ++ rest) s u := by
  induction h with
  | nil => exact h'
  | cons hfail _ ih => exact .cons hfail (ih h')

/-- What every attempt keeps holds where each of them is made, and at the end. -/
theorem Failing.each {P : S → Prop} (keeps : ∀ a s, P s → P (act a s).2) {plan : List α}
    {s t : S} (h : Failing act plan s t) (hs : P s) :
    P t ∧ ∀ a ∈ plan, ∃ u v, P u ∧ act a u = (false, v) := by
  induction h with
  | nil => exact ⟨hs, fun a ha => (List.not_mem_nil ha).elim⟩
  | @cons a plan s t u hfail _ ih =>
    have ht : P t := by
      have := keeps a s hs
      rwa [hfail] at this
    obtain ⟨hu, hrest⟩ := ih ht
    refine ⟨hu, fun b hb => ?_⟩
    rcases List.mem_cons.mp hb with rfl | hb
    · exact ⟨s, t, hs, hfail⟩
    · exact hrest b hb

theorem perform_append (plan rest : List α) (s : S) : perform act (plan ++ rest) s =
    if (perform act plan s).1 then perform act plan s
    else perform act rest (perform act plan s).2 := by
  induction plan generalizing s with
  | nil => rfl
  | cons a plan ih =>
    rw [List.cons_append, perform, perform]
    generalize act a s = r
    obtain ⟨ret, t⟩ := r
    cases ret with
    | true => rfl
    | false => exact ih t

theorem perform_false {plan : List α} {s t : S} :
    perform act plan s = (false, t) ↔ Failing act plan s t := by
  constructor
  · intro h
    induction plan generalizing s with
    | nil =>
      cases h
      exact .nil
    | cons a plan ih =>
      rw [perform] at h
      split at h
      · cases h
      · rename_i u hfail
        exact .cons hfail (ih h)
  · intro h
    induction h with
    | nil => rfl
    | cons hfail _ ih =>
      rw [perform, hfail]
      exact ih

theorem perform_true {plan : List α} {s t : S} : perform act plan s = (true, t) ↔
    ∃ done a rest u, plan = done ++ a :: rest ∧ Failing act done s u ∧ act a u = (true, t) := by
  constructor
  · intro h
    induction plan generalizing s with
    | nil => cases h
    | cons a plan ih =>
      rw [perform] at h
      split at h
      · rename_i u hgood
        cases h
        exact ⟨[], a, plan, s, rfl, .nil, hgood⟩
      · rename_i u hfail
        obtain ⟨done, b, rest, v, rfl, hdone, hb⟩ := ih h
        exact ⟨a :: done, b, rest, v, rfl, .cons hfail hdone, hb⟩
  · rintro ⟨done, a, rest, u, rfl, hdone, ha⟩
    rw [perform_append, perform_false.mpr hdone, if_neg Bool.false_ne_true, perform, ha]

variable (act)

/-- The outcome of the `k`-th attempt, if all are made. -/
def outcomeOf : List α → S → Nat → Bool
  | [], _, _ => false
  | a :: _, s, 0 => (act a s).1
  | a :: plan, s, k + 1 => outcomeOf plan (act a s).2 k

variable {act}

/-- The outcomes behind the first attempt. -/
theorem attempt_shift (outcomes : Nat → Bool) (a : α) (plan made : List α) :
    attempt outcomes plan (a :: made) =
      ((attempt (fun k => outcomes (k + 1)) plan made).1,
        a :: (attempt (fun k => outcomes (k + 1)) plan made).2) := by
  induction plan generalizing made with
  | nil => rfl
  | cons b plan ih =>
    rw [attempt, attempt, List.length_cons, List.cons_append]
    split
    · rfl
    · exact ih (made ++ [b])

theorem attempt_outcomeOf_cons {a : α} {plan : List α} {s t : S} (h : act a s = (false, t)) :
    attempt (outcomeOf act (a :: plan) s) (a :: plan) [] =
      ((attempt (outcomeOf act plan t) plan []).1,
        a :: (attempt (outcomeOf act plan t) plan []).2) := by
  have hrest : (fun k => outcomeOf act (a :: plan) s (k + 1)) = outcomeOf act plan t := by
    funext k
    rw [outcomeOf, h]
  rw [attempt, List.length_nil, outcomeOf, h, if_neg Bool.false_ne_true, List.nil_append,
    attempt_shift, hrest]

/-- A plan that fails is attempted in full with the outcomes it meets. -/
theorem attempt_failing {plan : List α} {s t : S} (h : Failing act plan s t) :
    attempt (outcomeOf act plan s) plan [] = (false, plan) := by
  induction h with
  | nil => rfl
  | cons hfail _ ih => rw [attempt_outcomeOf_cons hfail, ih]

/-- Otherwise it is attempted up to its first success. -/
theorem attempt_performed {done rest : List α} {a : α} {s u t : S} (hdone : Failing act done s u)
    (ha : act a u = (true, t)) :
    attempt (outcomeOf act (done ++ a :: rest) s) (done ++ a :: rest) [] =
      (true, done ++ [a]) := by
  induction hdone with
  | nil =>
    rw [List.nil_append, attempt, List.length_nil, outcomeOf, ha, if_pos rfl]
  | cons hfail _ ih =>
    rw [List.cons_append, attempt_outcomeOf_cons hfail, ih ha]
    rfl

end

end Attempts
