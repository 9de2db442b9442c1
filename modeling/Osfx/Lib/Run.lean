/-!
# Runs of a deterministic event system

A system is one partial step function on states and events. The rules here lift
what one step does to a whole run:

* `run_invariant`: a property every step keeps holds at the end of a run;
* `run_length_le`: a run is no longer than a weight its steps lower was at its start;
* `always_of_each`: a property that steps keep which meet a guard holds in every
  state along a run whose steps all meet it;
* `each_of_each`: so every step of such a run has what the guard gives there;
* `always_iff_each`: when moreover a step outside the guard breaks the property,
  a run is safe throughout exactly if each of its steps meets the guard.
-/

namespace EventSystem

section
variable {State Event : Type} (step : State → Event → Option State)

/-- The state after a sequence of events, if every event was enabled. -/
def run : State → List Event → Option State
  | s, [] => some s
  | s, e :: es => (step s e).bind fun t => run t es

/-- `P` holds in every state a run goes through, the first and the last included. -/
def Always (P : State → Prop) : State → List Event → Prop
  | s, [] => P s
  | s, e :: es => P s ∧ ∀ t, step s e = some t → Always P t es

/-- Every step of a run meets the guard `G` in the state it is taken from. -/
def Each (G : State → Event → Prop) : State → List Event → Prop
  | _, [] => True
  | s, e :: es => G s e ∧ ∀ t, step s e = some t → Each G t es

theorem each_cons {G : State → Event → Prop} {s t : State} {e : Event} {es : List Event}
    (h : step s e = some t) : Each step G s (e :: es) ↔ G s e ∧ Each step G t es := by
  constructor
  · exact fun hg => ⟨hg.1, hg.2 t h⟩
  · rintro ⟨hg, hrest⟩
    refine ⟨hg, fun u hu => ?_⟩
    rw [h] at hu
    cases hu
    exact hrest

/-- Where the guard can be decided, so can it along a run. -/
instance decidableEach {G : State → Event → Prop} [∀ s e, Decidable (G s e)] :
    ∀ s es, Decidable (Each step G s es)
  | _, [] => isTrue trivial
  | s, e :: es =>
    match h : step s e with
    | none => decidable_of_iff (G s e) ⟨fun hg => ⟨hg, fun _ ht => nomatch h ▸ ht⟩, And.left⟩
    | some t =>
      have : Decidable (Each step G t es) := decidableEach t es
      decidable_of_iff (G s e ∧ Each step G t es) (each_cons step h).symm

@[simp] theorem run_nil (s : State) : run step s [] = some s := rfl

theorem run_cons (s : State) (e : Event) (es : List Event) :
    run step s (e :: es) = (step s e).bind fun t => run step t es := rfl

/-- Where every event is enabled, every sequence of them runs. -/
theorem run_isSome (total : ∀ s e, (step s e).isSome = true) (s : State) (es : List Event) :
    (run step s es).isSome = true := by
  induction es generalizing s with
  | nil => rfl
  | cons e es ih =>
    obtain ⟨t, ht⟩ := Option.isSome_iff_exists.mp (total s e)
    rw [run_cons, ht, Option.bind_some]
    exact ih t

theorem run_invariant {I : State → Prop} (keep : ∀ s e t, I s → step s e = some t → I t)
    {s t : State} {es : List Event} (hs : I s) (hr : run step s es = some t) : I t := by
  induction es generalizing s with
  | nil => cases hr; exact hs
  | cons e es ih =>
    rw [run_cons] at hr
    obtain ⟨u, hu, hr⟩ := Option.bind_eq_some_iff.mp hr
    exact ih (keep s e u hs hu) hr

/-- Each step of a run costs some of the weight it started with. -/
theorem run_length_le {weight : State → Nat}
    (lower : ∀ s e t, step s e = some t → weight t < weight s) {s t : State} {es : List Event}
    (hr : run step s es = some t) : es.length + weight t ≤ weight s := by
  induction es generalizing s with
  | nil =>
    cases hr
    exact Nat.le_of_eq (Nat.zero_add _)
  | cons e es ih =>
    rw [run_cons] at hr
    obtain ⟨u, hu, hr⟩ := Option.bind_eq_some_iff.mp hr
    have hstep := lower s e u hu
    have hrest := ih hr
    rw [List.length_cons]
    omega

theorem always_of_each {I : State → Prop} {G : State → Event → Prop}
    (keep : ∀ s e t, I s → G s e → step s e = some t → I t)
    {s : State} {es : List Event} (hs : I s) (hg : Each step G s es) : Always step I s es := by
  induction es generalizing s with
  | nil => exact hs
  | cons e es ih => exact ⟨hs, fun t ht => ih (keep s e t hs hg.1 ht) (hg.2 t ht)⟩

/-- What the guard gives in a state with the invariant holds at every step. -/
theorem each_of_each {I : State → Prop} {G Q : State → Event → Prop}
    (keep : ∀ s e t, I s → G s e → step s e = some t → I t) (imp : ∀ s e, I s → G s e → Q s e)
    {s : State} {es : List Event} (hs : I s) (hg : Each step G s es) : Each step Q s es := by
  induction es generalizing s with
  | nil => trivial
  | cons e es ih =>
    exact ⟨imp s e hs hg.1, fun t ht => ih (keep s e t hs hg.1 ht) (hg.2 t ht)⟩

/-- A guard on the events alone is met along a run if all its events meet it. -/
theorem each_of_forall {G : Event → Prop} (s : State) {es : List Event} (h : ∀ e ∈ es, G e) :
    Each step (fun _ e => G e) s es := by
  induction es generalizing s with
  | nil => trivial
  | cons e es ih =>
    refine ⟨h e List.mem_cons_self, ?_⟩
    intro t _
    exact ih t fun x hx => h x (List.mem_cons_of_mem e hx)

theorem always_mono {P Q : State → Prop} (imp : ∀ s, P s → Q s) {s : State} {es : List Event}
    (h : Always step P s es) : Always step Q s es := by
  induction es generalizing s with
  | nil => exact imp s h
  | cons e es ih => exact ⟨imp s h.1, fun t ht => ih (h.2 t ht)⟩

theorem always_here {P : State → Prop} {s : State} {es : List Event}
    (h : Always step P s es) : P s := by
  cases es with
  | nil => exact h
  | cons e es => exact h.1

theorem always_end {P : State → Prop} {s t : State} {es : List Event}
    (h : Always step P s es) (hr : run step s es = some t) : P t := by
  induction es generalizing s with
  | nil => cases hr; exact h
  | cons e es ih =>
    rw [run_cons] at hr
    obtain ⟨u, hu, hr⟩ := Option.bind_eq_some_iff.mp hr
    exact ih (h.2 u hu) hr

/-- If guarded steps keep the invariant, the invariant gives the property, and a
step outside the guard loses the property at once, then a run has the property
throughout exactly if its steps all meet the guard. -/
theorem always_iff_each {I P : State → Prop} {G : State → Event → Prop}
    (keep : ∀ s e t, I s → G s e → step s e = some t → I t)
    (safe : ∀ s, I s → P s)
    (lose : ∀ s e t, I s → ¬ G s e → step s e = some t → ¬ P t)
    {s t : State} {es : List Event} (hs : I s) (hr : run step s es = some t) :
    Always step P s es ↔ Each step G s es := by
  constructor
  · intro h
    induction es generalizing s with
    | nil => trivial
    | cons e es ih =>
      rw [run_cons] at hr
      obtain ⟨u, hu, hr⟩ := Option.bind_eq_some_iff.mp hr
      have hu' : Always step P u es := h.2 u hu
      have hg : G s e := by
        refine Classical.byContradiction fun hn => ?_
        exact lose s e u hs hn hu (always_here step hu')
      refine ⟨hg, fun v hv => ?_⟩
      obtain rfl : u = v := Option.some.inj (hu ▸ hv)
      exact ih (keep s e u hs hg hu) hr hu'
  · exact fun hg => always_mono step safe (always_of_each step keep hs hg)

end

end EventSystem
