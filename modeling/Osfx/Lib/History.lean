/-!
# Histories

A history is the list of the events so far, the latest at its end. Two properties of
histories and what one more event does to them:

* `Since p q`: an event with `p` has happened, and none with `q` after it;
* `Throughout P`: every event had `P` with the history before it.
-/

namespace Histories

section
variable {α : Type}

def Since (p q : α → Prop) (history : List α) : Prop :=
  ∃ before e after, history = before ++ e :: after ∧ p e ∧ ∀ c ∈ after, ¬ q c

def Throughout (P : List α → α → Prop) (history : List α) : Prop :=
  ∀ before e after, history = before ++ e :: after → P before e

theorem not_since_nil (p q : α → Prop) : ¬ Since p q [] := by
  rintro ⟨before, e, after, h, -⟩
  cases before with
  | nil => cases h
  | cons _ _ => cases h

theorem since_snoc {p q : α → Prop} {history : List α} {e : α} :
    Since p q (history ++ [e]) ↔ p e ∨ (Since p q history ∧ ¬ q e) := by
  constructor
  · rintro ⟨before, c, after, heq, hp, hq⟩
    rcases List.eq_nil_or_concat after with rfl | ⟨init, last, rfl⟩
    · obtain ⟨-, heq⟩ := List.append_inj' heq rfl
      cases heq
      exact Or.inl hp
    · rw [List.concat_eq_append, ← List.cons_append, ← List.append_assoc] at heq
      obtain ⟨hinit, hlast⟩ := List.append_inj' heq rfl
      cases hlast
      rw [List.concat_eq_append] at hq
      exact Or.inr ⟨⟨before, c, init, hinit, hp, fun x hx => hq x (List.mem_append_left _ hx)⟩,
        hq e (List.mem_append_right _ List.mem_cons_self)⟩
  · rintro (hp | ⟨⟨before, c, after, rfl, hp, hq⟩, he⟩)
    · exact ⟨history, e, [], rfl, hp, by simp⟩
    · refine ⟨before, c, after ++ [e], by simp, hp, fun x hx => ?_⟩
      rcases List.mem_append.mp hx with hx | hx
      · exact hq x hx
      · rw [List.mem_singleton.mp hx]
        exact he

theorem throughout_nil (P : List α → α → Prop) : Throughout P [] := by
  intro before e after h
  cases before with
  | nil => cases h
  | cons _ _ => cases h

theorem throughout_snoc {P : List α → α → Prop} {history : List α} {e : α} :
    Throughout P (history ++ [e]) ↔ Throughout P history ∧ P history e := by
  constructor
  · intro h
    exact ⟨fun before c after heq => h before c (after ++ [e]) (by simp [heq]),
      h history e [] rfl⟩
  · rintro ⟨h, he⟩ before c after heq
    rcases List.eq_nil_or_concat after with rfl | ⟨init, last, rfl⟩
    · obtain ⟨rfl, hlast⟩ := List.append_inj' heq rfl
      cases hlast
      exact he
    · rw [List.concat_eq_append, ← List.cons_append, ← List.append_assoc] at heq
      exact h before c init (List.append_inj' heq rfl).1

end

end Histories
