import Mathlib.Data.List.Basic

/-!
# Loops that stop at the first failure

`l.mapM f` in `Option` is a loop over `l` that collects what `f` gives, or gives up where `f`
does. `mapM_getElem?` says what is collected at an index, `mapM_exists` when nothing fails,
`mapM_mapM` what a second loop makes of it, and `mapM_modify` what a change of one element
changes.
-/

namespace Collect

section
variable {α β : Type} {f : α → Option β} {l : List α} {bs : List β}

theorem mapM_cons_some {a : α} (h : (a :: l).mapM f = some bs) :
    ∃ b rest, f a = some b ∧ l.mapM f = some rest ∧ bs = b :: rest := by
  rw [List.mapM_cons] at h
  obtain ⟨b, hb, h⟩ := Option.bind_eq_some_iff.mp h
  obtain ⟨rest, hrest, h⟩ := Option.bind_eq_some_iff.mp h
  exact ⟨b, rest, hb, hrest, (Option.some.inj h).symm⟩

theorem mapM_cons_of_some {a : α} {b : β} (hb : f a = some b) (h : l.mapM f = some bs) :
    (a :: l).mapM f = some (b :: bs) := by
  rw [List.mapM_cons, hb, h]
  rfl

theorem mapM_getElem? (h : l.mapM f = some bs) (i : Nat) : bs[i]? = l[i]?.bind f := by
  induction l generalizing bs i with
  | nil =>
    cases h
    rfl
  | cons a l ih =>
    obtain ⟨b, rest, hb, hrest, rfl⟩ := mapM_cons_some h
    cases i with
    | zero => simp [hb]
    | succ i => simpa using ih hrest i

theorem length_mapM (h : l.mapM f = some bs) : bs.length = l.length := by
  induction l generalizing bs with
  | nil =>
    cases h
    rfl
  | cons a l ih =>
    obtain ⟨b, rest, -, hrest, rfl⟩ := mapM_cons_some h
    rw [List.length_cons, List.length_cons, ih hrest]

theorem mapM_exists (h : ∀ a ∈ l, ∃ b, f a = some b) : ∃ bs, l.mapM f = some bs := by
  induction l with
  | nil => exact ⟨[], rfl⟩
  | cons a l ih =>
    obtain ⟨b, hb⟩ := h a List.mem_cons_self
    obtain ⟨bs, hbs⟩ := ih fun x hx => h x (List.mem_cons_of_mem a hx)
    exact ⟨b :: bs, mapM_cons_of_some hb hbs⟩

theorem mapM_mem {b : β} (h : l.mapM f = some bs) (hb : b ∈ bs) : ∃ a ∈ l, f a = some b := by
  obtain ⟨i, hi⟩ := List.mem_iff_getElem?.mp hb
  rw [mapM_getElem? h] at hi
  obtain ⟨a, ha, hf⟩ := Option.bind_eq_some_iff.mp hi
  exact ⟨a, List.mem_of_getElem? ha, hf⟩

/-- A second loop, over what a first one collected, is one over the same list. -/
theorem mapM_mapM {γ : Type} {g : β → Option γ} {k : α → Option γ} (h : l.mapM f = some bs)
    (one : ∀ a ∈ l, ∀ b, f a = some b → g b = k a) : bs.mapM g = l.mapM k := by
  induction l generalizing bs with
  | nil =>
    obtain rfl : [] = bs := Option.some.inj h
    rfl
  | cons a l ih =>
    obtain ⟨b, rest, hb, hrest, rfl⟩ := mapM_cons_some h
    have htail := ih hrest fun x hx => one x (List.mem_cons_of_mem a hx)
    rw [List.mapM_cons, List.mapM_cons, one a List.mem_cons_self b hb, htail]

/-- Where one element is changed, only what is collected for it changes. -/
theorem mapM_modify {g g' : α → α} {k : β → β}
    (one : ∀ a b, f (g a) = some b → f (g' a) = some (k b)) {i : Nat}
    (h : (l.modify i g).mapM f = some bs) : (l.modify i g').mapM f = some (bs.modify i k) := by
  induction l generalizing bs i with
  | nil =>
    rw [List.modify_nil] at h ⊢
    obtain rfl : [] = bs := Option.some.inj h
    rw [List.modify_nil]
    exact h
  | cons a l ih =>
    cases i with
    | zero =>
      rw [List.modify_zero_cons] at h ⊢
      obtain ⟨b, rest, hb, hrest, rfl⟩ := mapM_cons_some h
      exact mapM_cons_of_some (one a b hb) hrest
    | succ i =>
      rw [List.modify_succ_cons] at h ⊢
      obtain ⟨b, rest, hb, hrest, rfl⟩ := mapM_cons_some h
      exact mapM_cons_of_some hb (ih hrest)

end

end Collect
